import TKey.Session

namespace TKey

open ByteMemory NorFlash

/-!
# Machines that agree

A system call depends on the contents of flash, the partition table and the
running app; only `GET_APP_DATA` looks at anything else.  Machines that agree
on these answer alike and keep agreeing, whatever the rest of their state is.
This makes every run of the device a session.
-/

/-- Two machines with the same store and the same app running. -/
structure Machine.Agrees (left right : Machine) : Prop where
  store : left.SameStore right
  status : left.partStatus = right.partStatus
  app : left.runningApp = right.runningApp

namespace Machine.Agrees

variable {left right : Machine}

theorem table (agrees : left.Agrees right) : left.table = right.table :=
  agrees.store.table

theorem memory (agrees : left.Agrees right) :
    left.flash.memory = right.flash.memory :=
  agrees.store.1

theorem cdi (agrees : left.Agrees right) : left.cdi = right.cdi :=
  congrArg App.cdi agrees.app

theorem ram (agrees : left.Agrees right) : left.ram = right.ram :=
  congrArg App.ram agrees.app

theorem currentAppDigest (agrees : left.Agrees right) :
    left.currentAppDigest = right.currentAppDigest :=
  congrArg App.currentAppDigest agrees.app

theorem isMgmt_iff (agrees : left.Agrees right) (device : Device) :
    left.IsMgmt device ↔ right.IsMgmt device := by
  rw [IsMgmt, IsMgmt, agrees.currentAppDigest]

/-- The same commands keep two machines in agreement. -/
theorem perform (agrees : left.Agrees right) (commands : List Command) :
    (left.perform commands).Agrees (right.perform commands) where
  store := by
    refine ⟨?_, agrees.store.2⟩
    unfold Machine.perform
    exact congrArg (NorFlash.run commands) agrees.memory
  status := agrees.status
  app := agrees.app

/-- So does the same update of the table. -/
theorem updateTable
    (agrees : left.Agrees right)
    (before : List Command)
    (table : PartitionTable)
    (after : List Command) :
    (left.updateTable before table after).Agrees
      (right.updateTable before table after) := by
  unfold Machine.updateTable
  apply perform
  exact ⟨⟨agrees.memory, rfl⟩, agrees.status, agrees.app⟩

/-- So do the same contents of app RAM. -/
theorem withRam (agrees : left.Agrees right) (ram : Memory) :
    Machine.Agrees { left with ram := ram } { right with ram := ram } where
  store := agrees.store
  status := agrees.status
  app := by
    simp only [runningApp, agrees.cdi, agrees.currentAppDigest]

/-- So does the same request for the next boot. -/
theorem withResetinfo (agrees : left.Agrees right) (info : Reset) :
    Machine.Agrees
      { left with resetinfo := info } { right with resetinfo := info } :=
  ⟨agrees.store, agrees.status, agrees.app⟩

end Machine.Agrees

/-- Two runs that end alike, on machines that agree. -/
inductive ResultsAgree :
    EStateM.Result Stop Machine Int →
    EStateM.Result Stop Machine Int →
    Prop where
  | returns {left right : Machine}
      (value : Int)
      (agrees : left.Agrees right) :
      ResultsAgree (.ok value left) (.ok value right)
  | stops {left right : Machine}
      (stop : Stop)
      (agrees : left.Agrees right) :
      ResultsAgree (.error stop left) (.error stop right)

/-- Apps see the same of results that agree. -/
theorem ResultsAgree.reply_eq
    {left right : EStateM.Result Stop Machine Int}
    (agree : ResultsAgree left right) :
    reply left = reply right := by
  cases agree with
  | returns value agrees =>
      rw [reply, reply, agrees.ram]
  | stops stop agrees =>
      rfl

/-- Results that agree leave machines that agree. -/
theorem ResultsAgree.machines
    {left right : EStateM.Result Stop Machine Int}
    (agree : ResultsAgree left right) :
    (resultMachine left).Agrees (resultMachine right) := by
  cases agree with
  | returns value agrees =>
      exact agrees
  | stops stop agrees =>
      exact agrees

/-- Results agree on both sides of a condition that both machines share. -/
theorem ResultsAgree.ite
    {left right left' right' : EStateM.Result Stop Machine Int}
    {condition condition' : Prop}
    [Decidable condition]
    [Decidable condition']
    (same : condition ↔ condition')
    (agree : ResultsAgree left left')
    (otherwise : ResultsAgree right right') :
    ResultsAgree (if condition then left else right)
      (if condition' then left' else right') := by
  by_cases holds : condition
  · rw [if_pos holds, if_pos (same.mp holds)]
    exact agree
  · rw [if_neg holds, if_neg fun holds' => holds (same.mpr holds')]
    exact otherwise

section Calls

variable {device : Device} {call : Call} {left right : Machine}

/-- Storage calls agree. -/
theorem storageCall_agrees
    (agrees : left.Agrees right)
    {num : SyscallNum}
    (isCall : SyscallNum.ofWord call.number = some num)
    (isStorage :
      num = .allocArea ∨ num = .deallocArea ∨ num = .writeData ∨
        num = .readData ∨ num = .eraseData) :
    ResultsAgree ((syscallHandler device call).run left)
      ((syscallHandler device call).run right) := by
  have withBytes (index : Fin 4) :
      ResultsAgree
        (.ok 0
          { left with
            ram :=
              write left.ram call.arg2.toNat
                (read left.flash.memory (areaStart index + call.arg1.toNat)
                  call.arg3.toNat) })
        (.ok 0
          { right with
            ram :=
              write right.ram call.arg2.toNat
                (read right.flash.memory (areaStart index + call.arg1.toNat)
                  call.arg3.toNat) }) := by
    rw [← agrees.ram, ← agrees.memory]
    exact .returns 0 (agrees.withRam _)
  have noArea : ResultsAgree (.ok (-1) left) (.ok (-1) right) :=
    .returns _ agrees
  rcases isStorage with rfl | rfl | rfl | rfl | rfl
  · rw [syscallHandler_allocArea isCall, syscallHandler_allocArea isCall,
      agrees.table, agrees.cdi]
    cases allocation right.table right.cdi with
    | none =>
        exact .returns _ agrees
    | some index =>
        exact .returns 0 (agrees.updateTable _ _ _)
  · rw [syscallHandler_deallocArea isCall,
      syscallHandler_deallocArea isCall, agrees.table, agrees.cdi]
    cases ownedArea right.table right.cdi with
    | none =>
        exact noArea
    | some index =>
        exact .returns 0 (agrees.updateTable _ _ _)
  · rw [syscallHandler_writeData isCall, syscallHandler_writeData isCall,
      agrees.table, agrees.cdi, agrees.ram]
    cases ownedArea right.table right.cdi with
    | none =>
        exact noArea
    | some index =>
        exact .ite Iff.rfl (.returns 0 (agrees.perform _)) noArea
  · rw [syscallHandler_readData isCall, syscallHandler_readData isCall]
    have sameArea :
        ownedArea left.table left.cdi = ownedArea right.table right.cdi := by
      rw [agrees.table, agrees.cdi]
    cases owned : ownedArea right.table right.cdi with
    | none =>
        rw [sameArea, owned]
        exact noArea
    | some index =>
        rw [sameArea, owned]
        exact .ite Iff.rfl (withBytes index) noArea
  · rw [syscallHandler_eraseData isCall, syscallHandler_eraseData isCall,
      agrees.table, agrees.cdi]
    cases ownedArea right.table right.cdi with
    | none =>
        exact noArea
    | some index =>
        exact .ite Iff.rfl (.returns 0 (agrees.perform _)) noArea

/-- Calls that concern app slots or all areas agree. -/
theorem mgmtCall_agrees
    (agrees : left.Agrees right)
    {num : SyscallNum}
    (isCall : SyscallNum.ofWord call.number = some num)
    (isMgmt :
      num = .preloadStore ∨ num = .preloadStoreFin ∨
        num = .preloadDelete ∨ num = .preloadGetMetadata ∨
        num = .preloadSetPubkey ∨ num = .eraseAreas) :
    ResultsAgree ((syscallHandler device call).run left)
      ((syscallHandler device call).run right) := by
  have refused : ResultsAgree (.ok (-1) left) (.ok (-1) right) :=
    .returns _ agrees
  have slot : (1 : UInt8) = slotByte 1 := rfl
  have mgmt := agrees.isMgmt_iff device
  rcases isMgmt with rfl | rfl | rfl | rfl | rfl | rfl <;>
    rw [syscallHandler, isCall] <;>
    simp only
  · rw [slot, preloadStore_run, preloadStore_run, agrees.ram]
    refine .ite ?_ (.returns 0 (agrees.perform _)) refused
    rw [AcceptsStore, AcceptsStore, mgmt, agrees.table]
  · rw [slot, preloadStoreFinalize_run, preloadStoreFinalize_run]
    have stored :
        storedApp call.arg1 call.arg2 call.arg3 1 left =
          storedApp call.arg1 call.arg2 call.arg3 1 right := by
      rw [storedApp, storedApp, agrees.ram, agrees.table]
    rw [stored, agrees.table]
    refine .ite ?_ (.returns 0 (agrees.updateTable _ _ _)) refused
    rw [AcceptsFinalize, AcceptsFinalize, mgmt, agrees.table]
  · rw [slot, preloadDelete_run, preloadDelete_run, agrees.table]
    exact
      .ite mgmt
        (.ite Iff.rfl (.returns 0 agrees)
          (.returns 0 (agrees.updateTable _ _ _)))
        refused
  · rw [slot, preloadGetMetadata_run, preloadGetMetadata_run]
    refine .ite ?_ ?_ refused
    · rw [AcceptsGetMetadata, AcceptsGetMetadata, mgmt]
    · rw [← agrees.ram, ← agrees.table]
      exact .returns 0 (agrees.withRam _)
  · rw [slot, preloadSetPubkey_run, preloadSetPubkey_run]
    have keyed : keyedApp call.arg1 1 left = keyedApp call.arg1 1 right := by
      rw [keyedApp, keyedApp, agrees.ram, agrees.table]
    rw [keyed, agrees.table]
    refine .ite ?_ (.returns 0 (agrees.updateTable _ _ _)) refused
    rw [AcceptsSetPubkey, AcceptsSetPubkey, mgmt]
  · rw [storageEraseAreas_run, storageEraseAreas_run, agrees.table]
    exact .ite mgmt (.returns 0 (agrees.updateTable _ _ _)) refused

/-- Every call but one agrees. -/
theorem syscallHandler_agrees
    (agrees : left.Agrees right)
    (notAppData : SyscallNum.ofWord call.number ≠ some .getAppData) :
    ResultsAgree ((syscallHandler device call).run left)
      ((syscallHandler device call).run right) := by
  cases isCall : SyscallNum.ofWord call.number with
  | none =>
      rw [syscallHandler, isCall]
      exact .stops .halt agrees
  | some num =>
      cases num with
      | reset =>
          have request :
              handover left.cdi (userRequest left.ram call.arg1)
                  call.arg2.toNat =
                handover right.cdi (userRequest right.ram call.arg1)
                  call.arg2.toNat := by
            rw [agrees.cdi, agrees.ram]
          rw [syscallHandler, isCall]
          simp only
          rw [reset_run, reset_run, request]
          exact
            .ite Iff.rfl (.stops .systemReset (agrees.withResetinfo _))
              (.returns _ agrees)
      | getVidpid =>
          rw [syscallHandler, isCall]
          exact .returns _ agrees
      | status =>
          have run (m : Machine) :
              (syscallHandler device call).run m =
                .ok m.partStatus.toNat m := by
            rw [syscallHandler, isCall]
            rfl
          rw [run, run, agrees.status]
          exact .returns _ agrees
      | regMgmt =>
          rw [syscallHandler, isCall]
          exact .stops .halt agrees
      | getAppData =>
          exact absurd isCall notAppData
      | allocArea | deallocArea | writeData | readData | eraseData =>
          exact storageCall_agrees agrees isCall (by simp)
      | preloadStore | preloadStoreFin | preloadDelete
      | preloadGetMetadata | preloadSetPubkey | eraseAreas =>
          exact mgmtCall_agrees agrees isCall (by simp)

end Calls

end TKey
