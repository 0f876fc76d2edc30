import TKey.Reset

namespace TKey

open ByteMemory NorFlash

/-!
# System calls

`syscall_handler.c` and `syscall_num.h`: how the firmware answers the calls of
the running app.
-/

/-- `enum syscall_num`. -/
inductive SyscallNum where
  | reset
  | allocArea
  | deallocArea
  | writeData
  | readData
  | eraseData
  | getVidpid
  | preloadStore
  | preloadStoreFin
  | preloadDelete
  | preloadGetMetadata
  | regMgmt
  | status
  | getAppData
  | preloadSetPubkey
  | eraseAreas
  deriving Repr, DecidableEq

namespace SyscallNum

/-- The number of a system call. -/
def word : SyscallNum → UInt32
  | .reset => 1
  | .allocArea => 2
  | .deallocArea => 3
  | .writeData => 4
  | .readData => 5
  | .eraseData => 6
  | .getVidpid => 7
  | .preloadStore => 8
  | .preloadStoreFin => 9
  | .preloadDelete => 10
  | .preloadGetMetadata => 11
  | .regMgmt => 12
  | .status => 13
  | .getAppData => 14
  | .preloadSetPubkey => 15
  | .eraseAreas => 16

/-- All system calls. -/
def all : List SyscallNum :=
  [.reset, .allocArea, .deallocArea, .writeData, .readData, .eraseData,
    .getVidpid, .preloadStore, .preloadStoreFin, .preloadDelete,
    .preloadGetMetadata, .regMgmt, .status, .getAppData,
    .preloadSetPubkey, .eraseAreas]

/-- The system call with a given number, if there is one. -/
def ofWord (number : UInt32) : Option SyscallNum :=
  all.find? fun num => num.word = number

theorem ofWord_word (num : SyscallNum) : ofWord num.word = some num := by
  cases num <;> decide

end SyscallNum

/-- The arguments of a system call, and the words the TRNG delivers to it. -/
structure Call where
  number : UInt32
  arg1 : UInt32
  arg2 : UInt32
  arg3 : UInt32
  words : Vector UInt32 4
  deriving DecidableEq

/-- A negative result becomes `-1`, any other one zero. -/
def zeroOrFailure (program : Fw Int) : Fw Int := do
  let result ← program
  return if result < 0 then -1 else 0

/-- Answer a system call of the running app. -/
def syscallHandler (device : Device) (call : Call) : Fw Int :=
  match SyscallNum.ofWord call.number with
  | some .reset => reset call.arg1 call.arg2
  | some .allocArea => zeroOrFailure (storageAllocateArea call.words)
  | some .deallocArea => zeroOrFailure storageDeallocateArea
  | some .writeData =>
      zeroOrFailure (storageWriteData call.arg1 call.arg2 call.arg3)
  | some .readData =>
      zeroOrFailure (storageReadData call.arg1 call.arg2 call.arg3)
  | some .eraseData =>
      zeroOrFailure (storageEraseSector call.arg1 call.arg2)
  | some .getVidpid => return device.vidpid.toBitVec.toInt
  | some .preloadDelete => preloadDelete device 1
  | some .preloadStore =>
      preloadStore device call.arg1 call.arg2 call.arg3 1
  | some .preloadStoreFin =>
      preloadStoreFinalize device call.arg1 call.arg2 call.arg3 1
  | some .preloadGetMetadata =>
      preloadGetMetadata device call.arg1 call.arg2 call.arg3 1
  | some .preloadSetPubkey => preloadSetPubkey device call.arg1 1
  | some .status => do
      let m ← get
      return m.partStatus.toNat
  | some .getAppData => resetData call.arg1
  | some .eraseAreas => storageEraseAreas device
  | some .regMgmt => throw .halt
  | none => throw .halt

section Storage

/-- The return value of a wrapped program that returns. -/
theorem zeroOrFailure_run
    {program : Fw Int}
    {m m' : Machine}
    {value : Int}
    (returns : program.run m = .ok value m') :
    (zeroOrFailure program).run m =
      .ok (if value < 0 then -1 else 0) m' := by
  rw [zeroOrFailure, Fw.run_bind_of_ok returns]
  rfl

/-- The answer to a request for an area. -/
theorem syscallHandler_allocArea
    {device : Device}
    {call : Call}
    (isCall : SyscallNum.ofWord call.number = some .allocArea)
    (m : Machine) :
    (syscallHandler device call).run m =
      match allocation m.table m.cdi with
      | some index =>
          .ok 0
            (m.updateTable (areaErase index)
              (m.table.setArea index (allocatedArea m.cdi call.words)) [])
      | none =>
          .ok (if ownedArea m.table m.cdi = none then -1 else 0) m := by
  have result := storageAllocateArea_run call.words m
  rw [syscallHandler, isCall]
  cases chosen : allocation m.table m.cdi with
  | none =>
      simp only [chosen] at result ⊢
      rw [zeroOrFailure_run result]
      split <;> rfl
  | some index =>
      simp only [chosen] at result ⊢
      rw [zeroOrFailure_run result]
      rfl

/-- The answer to a request to free an area. -/
theorem syscallHandler_deallocArea
    {device : Device}
    {call : Call}
    (isCall : SyscallNum.ofWord call.number = some .deallocArea)
    (m : Machine) :
    (syscallHandler device call).run m =
      match ownedArea m.table m.cdi with
      | some index =>
          .ok 0
            (m.updateTable (areaErase index)
              (m.table.setArea index freeArea) [])
      | none =>
          .ok (-1) m := by
  have result := storageDeallocateArea_run m
  rw [syscallHandler, isCall]
  cases owned : ownedArea m.table m.cdi with
  | none =>
      simp only [owned] at result ⊢
      rw [zeroOrFailure_run result]
      rfl
  | some index =>
      simp only [owned] at result ⊢
      rw [zeroOrFailure_run result]
      rfl

/-- The answer to a request to write data. -/
theorem syscallHandler_writeData
    {device : Device}
    {call : Call}
    (isCall : SyscallNum.ofWord call.number = some .writeData)
    (m : Machine) :
    (syscallHandler device call).run m =
      match ownedArea m.table m.cdi with
      | some index =>
          if WritableRange call.arg1 call.arg2 call.arg3 then
            .ok 0
              (m.perform
                (pages 256 (areaStart index + call.arg1.toNat)
                  (read m.ram call.arg2.toNat call.arg3.toNat)))
          else
            .ok (-1) m
      | none =>
          .ok (-1) m := by
  have result := storageWriteData_run call.arg1 call.arg2 call.arg3 m
  rw [syscallHandler, isCall]
  cases owned : ownedArea m.table m.cdi with
  | none =>
      simp only [owned] at result ⊢
      rw [zeroOrFailure_run result]
      rfl
  | some index =>
      simp only [owned] at result ⊢
      split at result <;> rename_i range
      · rw [zeroOrFailure_run result, if_pos range]
        rfl
      · rw [zeroOrFailure_run result, if_neg range]
        rfl

/-- The answer to a request to read data. -/
theorem syscallHandler_readData
    {device : Device}
    {call : Call}
    (isCall : SyscallNum.ofWord call.number = some .readData)
    (m : Machine) :
    (syscallHandler device call).run m =
      match ownedArea m.table m.cdi with
      | some index =>
          if ReadableRange call.arg1 call.arg2 call.arg3 then
            .ok 0
              { m with
                ram :=
                  write m.ram call.arg2.toNat
                    (read m.flash.memory
                      (areaStart index + call.arg1.toNat)
                      call.arg3.toNat) }
          else
            .ok (-1) m
      | none =>
          .ok (-1) m := by
  have result := storageReadData_run call.arg1 call.arg2 call.arg3 m
  rw [syscallHandler, isCall]
  cases owned : ownedArea m.table m.cdi with
  | none =>
      simp only [owned] at result ⊢
      rw [zeroOrFailure_run result]
      rfl
  | some index =>
      simp only [owned] at result ⊢
      split at result <;> rename_i range
      · rw [zeroOrFailure_run result, if_pos range]
        rfl
      · rw [zeroOrFailure_run result, if_neg range]
        rfl

/-- The answer to a request to erase sectors. -/
theorem syscallHandler_eraseData
    {device : Device}
    {call : Call}
    (isCall : SyscallNum.ofWord call.number = some .eraseData)
    (m : Machine) :
    (syscallHandler device call).run m =
      match ownedArea m.table m.cdi with
      | some index =>
          if ErasableRange call.arg1 call.arg2 then
            .ok 0
              (m.perform
                (sectorErases (areaStart index + call.arg1.toNat)
                  (call.arg2.toNat / 4096)))
          else
            .ok (-1) m
      | none =>
          .ok (-1) m := by
  have result := storageEraseSector_run call.arg1 call.arg2 m
  rw [syscallHandler, isCall]
  cases owned : ownedArea m.table m.cdi with
  | none =>
      simp only [owned] at result ⊢
      rw [zeroOrFailure_run result]
      rfl
  | some index =>
      simp only [owned] at result ⊢
      split at result <;> rename_i range
      · rw [zeroOrFailure_run result, if_pos range]
        rfl
      · rw [zeroOrFailure_run result, if_neg range]
        rfl

end Storage

section Outcomes

/--
What a system call can do, with the conditions under which it does it.  Every
constructor but the first and the last two sends flash commands.
-/
inductive Outcome (device : Device) (call : Call) (m : Machine) :
    EStateM.Result Stop Machine Int → Prop where
  /-- The call returns and changes nothing but app RAM. -/
  | quiet (value : Int) (ram : Memory) :
      Outcome device call m (.ok value { m with ram := ram })
  /-- A free area is erased and given to the app. -/
  | allocate (index : Fin 4)
      (isCall : SyscallNum.ofWord call.number = some .allocArea)
      (chosen : allocation m.table m.cdi = some index) :
      Outcome device call m
        (.ok 0
          (m.updateTable (areaErase index)
            (m.table.setArea index (allocatedArea m.cdi call.words)) []))
  /-- The area of the app is erased and freed. -/
  | deallocate (index : Fin 4)
      (isCall : SyscallNum.ofWord call.number = some .deallocArea)
      (owned : ownedArea m.table m.cdi = some index) :
      Outcome device call m
        (.ok 0
          (m.updateTable (areaErase index)
            (m.table.setArea index freeArea) []))
  /-- Sectors of the area of the app are erased. -/
  | eraseSectors (index : Fin 4)
      (isCall : SyscallNum.ofWord call.number = some .eraseData)
      (owned : ownedArea m.table m.cdi = some index)
      (range : ErasableRange call.arg1 call.arg2) :
      Outcome device call m
        (.ok 0
          (m.perform
            (sectorErases (areaStart index + call.arg1.toNat)
              (call.arg2.toNat / 4096))))
  /-- Data is programmed into the area of the app. -/
  | writeData (index : Fin 4)
      (isCall : SyscallNum.ofWord call.number = some .writeData)
      (owned : ownedArea m.table m.cdi = some index)
      (range : WritableRange call.arg1 call.arg2 call.arg3) :
      Outcome device call m
        (.ok 0
          (m.perform
            (pages 256 (areaStart index + call.arg1.toNat)
              (read m.ram call.arg2.toNat call.arg3.toNat))))
  /-- A chunk is programmed into app slot 1. -/
  | store
      (isCall : SyscallNum.ofWord call.number = some .preloadStore)
      (accepts :
        AcceptsStore device call.arg1 call.arg2 call.arg3 1 m) :
      Outcome device call m
        (.ok 0
          (m.perform
            (pages 256 (appStart 1 + call.arg1.toNat)
              (read m.ram call.arg2.toNat call.arg3.toNat))))
  /-- The app in slot 1 is entered in the table. -/
  | finalize
      (isCall : SyscallNum.ofWord call.number = some .preloadStoreFin)
      (accepts :
        AcceptsFinalize device call.arg1 call.arg2 call.arg3 1 m) :
      Outcome device call m
        (.ok 0
          (m.updateTable []
            (m.table.setApp 1
              (storedApp call.arg1 call.arg2 call.arg3 1 m)) []))
  /-- The app in slot 1 is removed from the table, then erased. -/
  | delete
      (isCall : SyscallNum.ofWord call.number = some .preloadDelete)
      (mgmt : m.IsMgmt device)
      (present : (m.table.app 1).size ≠ 0) :
      Outcome device call m
        (.ok 0
          (m.updateTable []
            (m.table.setApp 1 (deletedApp (m.table.app 1)))
            (slotErase 1)))
  /-- The public key of slot 1 is entered in the table. -/
  | setPubkey
      (isCall : SyscallNum.ofWord call.number = some .preloadSetPubkey)
      (accepts : AcceptsSetPubkey device call.arg1 m) :
      Outcome device call m
        (.ok 0
          (m.updateTable []
            (m.table.setApp 1 (keyedApp call.arg1 1 m)) []))
  /-- All areas are erased and freed. -/
  | eraseAreas
      (isCall : SyscallNum.ofWord call.number = some .eraseAreas)
      (mgmt : m.IsMgmt device) :
      Outcome device call m
        (.ok 0
          (m.updateTable allAreasErase m.table.withoutAreas []))
  /-- The record for the next boot is filled in and the system reset. -/
  | systemReset
      (isCall : SyscallNum.ofWord call.number = some .reset)
      (accepts : AcceptsReset call.arg1 call.arg2) :
      Outcome device call m
        (.error .systemReset
          { m with
            resetinfo :=
              handover m.cdi (userRequest m.ram call.arg1)
                call.arg2.toNat })
  /-- The number is unknown. -/
  | halted : Outcome device call m (.error .halt m)

/-- A system call does one of the things listed by `Outcome`. -/
theorem syscallHandler_outcome
    (device : Device)
    (call : Call)
    (m : Machine) :
    Outcome device call m ((syscallHandler device call).run m) := by
  cases isCall : SyscallNum.ofWord call.number with
  | none =>
      rw [syscallHandler, isCall]
      exact .halted
  | some num =>
      cases num with
      | reset =>
          rw [syscallHandler, isCall]
          simp only
          rw [reset_run]
          by_cases accepts : AcceptsReset call.arg1 call.arg2
          · rw [if_pos accepts]
            exact .systemReset isCall accepts
          · rw [if_neg accepts]
            exact .quiet _ m.ram
      | allocArea =>
          rw [syscallHandler_allocArea isCall]
          cases chosen : allocation m.table m.cdi with
          | none =>
              exact .quiet _ m.ram
          | some index =>
              exact .allocate index isCall chosen
      | deallocArea =>
          rw [syscallHandler_deallocArea isCall]
          cases owned : ownedArea m.table m.cdi with
          | none =>
              exact .quiet _ m.ram
          | some index =>
              exact .deallocate index isCall owned
      | writeData =>
          rw [syscallHandler_writeData isCall]
          cases owned : ownedArea m.table m.cdi with
          | none =>
              exact .quiet _ m.ram
          | some index =>
              simp only
              split <;> rename_i range
              · exact .writeData index isCall owned range
              · exact .quiet _ m.ram
      | readData =>
          rw [syscallHandler_readData isCall]
          cases owned : ownedArea m.table m.cdi with
          | none =>
              exact .quiet _ m.ram
          | some index =>
              simp only
              split
              · exact .quiet _ _
              · exact .quiet _ m.ram
      | eraseData =>
          rw [syscallHandler_eraseData isCall]
          cases owned : ownedArea m.table m.cdi with
          | none =>
              exact .quiet _ m.ram
          | some index =>
              simp only
              split <;> rename_i range
              · exact .eraseSectors index isCall owned range
              · exact .quiet _ m.ram
      | getVidpid =>
          rw [syscallHandler, isCall]
          exact .quiet _ m.ram
      | preloadStore =>
          rw [syscallHandler, isCall]
          simp only
          rw [show (1 : UInt8) = slotByte 1 from rfl, preloadStore_run]
          split <;> rename_i accepts
          · exact .store isCall accepts
          · exact .quiet _ m.ram
      | preloadStoreFin =>
          rw [syscallHandler, isCall]
          simp only
          rw [show (1 : UInt8) = slotByte 1 from rfl,
            preloadStoreFinalize_run]
          split <;> rename_i accepts
          · exact .finalize isCall accepts
          · exact .quiet _ m.ram
      | preloadDelete =>
          rw [syscallHandler, isCall]
          simp only
          rw [show (1 : UInt8) = slotByte 1 from rfl, preloadDelete_run]
          by_cases mgmt : m.IsMgmt device
          · rw [if_pos mgmt]
            split <;> rename_i present
            · exact .quiet _ m.ram
            · exact .delete isCall mgmt present
          · rw [if_neg mgmt]
            exact .quiet _ m.ram
      | preloadGetMetadata =>
          rw [syscallHandler, isCall]
          simp only
          rw [show (1 : UInt8) = slotByte 1 from rfl,
            preloadGetMetadata_run]
          split
          · exact .quiet _ _
          · exact .quiet _ m.ram
      | regMgmt =>
          rw [syscallHandler, isCall]
          exact .halted
      | status =>
          rw [syscallHandler, isCall]
          exact .quiet _ m.ram
      | getAppData =>
          rw [syscallHandler, isCall]
          simp only
          rw [resetData_run]
          split
          · exact .quiet _ _
          · exact .quiet _ m.ram
      | preloadSetPubkey =>
          rw [syscallHandler, isCall]
          simp only
          rw [show (1 : UInt8) = slotByte 1 from rfl,
            preloadSetPubkey_run]
          split <;> rename_i accepts
          · exact .setPubkey isCall accepts
          · exact .quiet _ m.ram
      | eraseAreas =>
          rw [syscallHandler, isCall]
          simp only
          rw [storageEraseAreas_run]
          split <;> rename_i mgmt
          · exact .eraseAreas isCall mgmt
          · exact .quiet _ m.ram

end Outcomes

end TKey
