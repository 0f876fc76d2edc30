import TKey.System

namespace TKey

/-!
# Failed system calls

Every check of a system call comes before its first effect, so a call that
reports a failure has done nothing.
-/

/-- A call that is either carried out or refused. -/
theorem unchanged_of_ite
    {condition : Prop}
    [Decidable condition]
    {m accepted m' : Machine}
    (fails :
      (if condition then .ok 0 accepted else .ok (-1) m) =
        (.ok (-1) m' : EStateM.Result Stop Machine Int)) :
    m' = m := by
  by_cases holds : condition
  · rw [if_pos holds] at fails
    cases fails
  · rw [if_neg holds] at fails
    cases fails
    rfl

variable {device : Device} {call : Call} {m m' : Machine}

/-- A storage call that fails has done nothing. -/
theorem unchanged_of_storage
    {num : SyscallNum}
    (isCall : SyscallNum.ofWord call.number = some num)
    (isStorage :
      num = .allocArea ∨ num = .deallocArea ∨ num = .writeData ∨
        num = .readData ∨ num = .eraseData)
    (fails : (syscallHandler device call).run m = .ok (-1) m') :
    m' = m := by
  rcases isStorage with rfl | rfl | rfl | rfl | rfl
  · rw [syscallHandler_allocArea isCall] at fails
    cases chosen : allocation m.table m.cdi with
    | none =>
        rw [chosen] at fails
        injection fails with _ same
        exact same.symm
    | some index =>
        rw [chosen] at fails
        cases fails
  · rw [syscallHandler_deallocArea isCall] at fails
    cases owned : ownedArea m.table m.cdi with
    | none =>
        rw [owned] at fails
        cases fails
        rfl
    | some index =>
        rw [owned] at fails
        cases fails
  · rw [syscallHandler_writeData isCall] at fails
    cases owned : ownedArea m.table m.cdi with
    | none =>
        rw [owned] at fails
        cases fails
        rfl
    | some index =>
        rw [owned] at fails
        exact unchanged_of_ite fails
  · rw [syscallHandler_readData isCall] at fails
    cases owned : ownedArea m.table m.cdi with
    | none =>
        rw [owned] at fails
        cases fails
        rfl
    | some index =>
        rw [owned] at fails
        exact unchanged_of_ite fails
  · rw [syscallHandler_eraseData isCall] at fails
    cases owned : ownedArea m.table m.cdi with
    | none =>
        rw [owned] at fails
        cases fails
        rfl
    | some index =>
        rw [owned] at fails
        exact unchanged_of_ite fails

/--
Failed system calls change nothing: a call that returns -1, other than the one
that returns the vendor and the product, leaves the whole machine as it was,
and with it flash, the partition table in `FW_RAM`, the reset record and app
RAM.
-/
theorem failed_call_unchanged
    (fails : (syscallHandler device call).run m = .ok (-1) m')
    (notVidpid : SyscallNum.ofWord call.number ≠ some .getVidpid) :
    m' = m := by
  have slot : (1 : UInt8) = slotByte 1 := rfl
  cases isCall : SyscallNum.ofWord call.number with
  | none =>
      rw [syscallHandler, isCall] at fails
      cases fails
  | some num =>
      cases num with
      | allocArea =>
          exact unchanged_of_storage isCall (.inl rfl) fails
      | deallocArea =>
          exact unchanged_of_storage isCall (.inr (.inl rfl)) fails
      | writeData =>
          exact unchanged_of_storage isCall (.inr (.inr (.inl rfl))) fails
      | readData =>
          exact
            unchanged_of_storage isCall (.inr (.inr (.inr (.inl rfl))))
              fails
      | eraseData =>
          exact
            unchanged_of_storage isCall (.inr (.inr (.inr (.inr rfl))))
              fails
      | getVidpid =>
          exact absurd isCall notVidpid
      | reset =>
          rw [syscallHandler, isCall] at fails
          simp only at fails
          rw [reset_run] at fails
          by_cases accepts : AcceptsReset call.arg1 call.arg2
          · rw [if_pos accepts] at fails
            cases fails
          · rw [if_neg accepts] at fails
            cases fails
            rfl
      | preloadStore =>
          rw [syscallHandler, isCall] at fails
          simp only at fails
          rw [slot, preloadStore_run] at fails
          exact unchanged_of_ite fails
      | preloadStoreFin =>
          rw [syscallHandler, isCall] at fails
          simp only at fails
          rw [slot, preloadStoreFinalize_run] at fails
          exact unchanged_of_ite fails
      | preloadDelete =>
          rw [syscallHandler, isCall] at fails
          simp only at fails
          rw [slot, preloadDelete_run] at fails
          by_cases mgmt : m.IsMgmt device
          · rw [if_pos mgmt] at fails
            split at fails <;> cases fails
          · rw [if_neg mgmt] at fails
            cases fails
            rfl
      | preloadGetMetadata =>
          rw [syscallHandler, isCall] at fails
          simp only at fails
          rw [slot, preloadGetMetadata_run] at fails
          exact unchanged_of_ite fails
      | regMgmt =>
          rw [syscallHandler, isCall] at fails
          cases fails
      | status =>
          rw [syscallHandler, isCall] at fails
          injection fails with _ same
          exact same.symm
      | getAppData =>
          rw [syscallHandler, isCall] at fails
          simp only at fails
          rw [resetData_run] at fails
          exact unchanged_of_ite fails
      | preloadSetPubkey =>
          rw [syscallHandler, isCall] at fails
          simp only at fails
          rw [slot, preloadSetPubkey_run] at fails
          exact unchanged_of_ite fails
      | eraseAreas =>
          rw [syscallHandler, isCall] at fails
          simp only at fails
          rw [storageEraseAreas_run] at fails
          exact unchanged_of_ite fails

/-- A reset is refused when the record is not in app RAM. -/
theorem failed_call_unchanged_sample :
    ∃ m',
      (syscallHandler .sample (.plain .reset)).run
            (.provisioned .sample) =
          .ok (-1) m' ∧
        m' = .provisioned .sample := by
  have isCall :
      SyscallNum.ofWord (Call.plain .reset).number = some .reset := rfl
  have fails :
      (syscallHandler .sample (.plain .reset)).run
          (.provisioned .sample) =
        .ok (-1) (.provisioned .sample) := by
    rw [syscallHandler, isCall]
    simp only
    rw [reset_run, if_neg (by decide)]
  exact ⟨_, fails, failed_call_unchanged fails (by decide)⟩

end TKey
