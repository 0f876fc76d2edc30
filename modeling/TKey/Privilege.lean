import TKey.MeasuredStart

namespace TKey

/-!
# The privilege of the management app

The system calls that manage the device ask `mgmt_app_authenticate` first.
It compares the digest that the loader of the management app has remembered in
`FW_RAM`, which a reset clears.
-/

/-- The system calls that only the management app may make. -/
inductive ManagementCall (call : Call) : Prop where
  | preloadStore
      (isCall : SyscallNum.ofWord call.number = some .preloadStore)
  | preloadStoreFin
      (isCall : SyscallNum.ofWord call.number = some .preloadStoreFin)
  | preloadDelete
      (isCall : SyscallNum.ofWord call.number = some .preloadDelete)
  | eraseAreas
      (isCall : SyscallNum.ofWord call.number = some .eraseAreas)

/--
The app was copied from slot 0 by a start type that is meant for the management
app, and what was copied has the digest of the management app.
-/
structure ManagementStart (device : Device) (launch : Launch) : Prop where
  type :
    launch.requested.type = startDefault ∨
      launch.requested.type = startFlash0
  silent : launch.heard = []
  image :
    launch.machine.image =
      ByteMemory.read launch.machine.flash.memory (appStart 0)
        (launch.machine.table.app 0).size.toNat
  measured : launch.machine.measured = device.allowedAppDigest

/-- Only two start types have the digest of the app remembered. -/
theorem type_of_managed
    {info : Reset}
    {slot : Fin 2}
    {verDigest : Option VerDigest}
    (isPlan :
      info.plan =
        some { source := .flash slot true, verDigest := verDigest }) :
    (info.type = startDefault ∨ info.type = startFlash0) ∧ slot = 0 := by
  unfold Reset.plan at isPlan
  split_ifs at isPlan with known
  all_goals cases isPlan
  exact ⟨known, rfl⟩

/-- A launched app that is taken for the management app is that app. -/
theorem Launched.managementStart
    {device : Device}
    {launch : Launch}
    (notZero : device.allowedAppDigest ≠ Vector.replicate 32 0)
    (launched : Launched device launch)
    (mgmt : launch.machine.IsMgmt device) :
    ManagementStart device launch := by
  have measured := launched.prepared.measured
  cases launched.prepared.origin with
  | flash slot managed verDigest isPlan silent image remembered verified
      noUss =>
      cases managed with
      | false =>
          have forgotten :
              launch.machine.currentAppDigest = Vector.replicate 32 0 :=
            remembered
          exact absurd (mgmt.symm.trans forgotten) notZero
      | true =>
          have known : launch.machine.currentAppDigest = launch.ctx.digest :=
            remembered
          obtain ⟨type, isFirst⟩ := type_of_managed isPlan
          rw [isFirst] at image
          exact
            { type := type
              silent := silent
              image := image
              measured := by
                rw [← measured, ← known]
                exact mgmt }
  | client cmd blocks verDigest isPlan transfer size image forgotten
      verified uss =>
      exact absurd (mgmt.symm.trans forgotten) notZero

/-- A management call of another app is refused. -/
theorem refused_of_not_mgmt
    {device : Device}
    {call : Call}
    {m : Machine}
    (management : ManagementCall call)
    (notMgmt : ¬ m.IsMgmt device) :
    (syscallHandler device call).run m = .ok (-1) m := by
  have slot : (1 : UInt8) = slotByte 1 := rfl
  cases management with
  | preloadStore isCall =>
      rw [syscallHandler, isCall]
      simp only
      rw [slot, preloadStore_run,
        if_neg (fun accepts => notMgmt accepts.1)]
  | preloadStoreFin isCall =>
      rw [syscallHandler, isCall]
      simp only
      rw [slot, preloadStoreFinalize_run,
        if_neg (fun accepts => notMgmt accepts.2.2.1)]
  | preloadDelete isCall =>
      rw [syscallHandler, isCall]
      simp only
      rw [slot, preloadDelete_run, if_neg notMgmt]
  | eraseAreas isCall =>
      rw [syscallHandler, isCall]
      simp only
      rw [storageEraseAreas_run, if_neg notMgmt]

/--
Only the management app is privileged: in every run, `mgmt_app_authenticate`
accepts the running app only if it was copied from slot 0 by one of the two
start types for the management app and has the allowed digest, and the
management calls of every other app are refused.
-/
theorem only_management_app
    {device : Device}
    (notZero : device.allowedAppDigest ≠ Vector.replicate 32 0)
    {chip : FlashChip}
    {scrambled : ByteMemory.Memory}
    {info : Reset}
    {events : List Event}
    {launch : Launch}
    {m : Machine}
    (isRunning :
      System.fromBoot device chip scrambled info events =
        .running launch m) :
    ((mgmtAppAuthenticate device).run m = .ok true m →
      ManagementStart device launch) ∧
      ∀ call,
        ManagementCall call →
        ¬ ManagementStart device launch →
        (syscallHandler device call).run m = .ok (-1) m := by
  have sound := sound_fromBoot device chip scrambled info events
  rw [isRunning] at sound
  cases sound with
  | running launched runsOn =>
      have privileged (mgmt : m.IsMgmt device) :
          ManagementStart device launch := by
        apply launched.managementStart notZero
        rw [Machine.IsMgmt, ← runsOn.currentAppDigest]
        exact mgmt
      constructor
      · intro accepted
        rw [mgmtAppAuthenticate_run] at accepted
        injection accepted with decided
        exact privileged (of_decide_eq_true decided)
      · intro call management other
        exact
          refused_of_not_mgmt management fun mgmt =>
            other (privileged mgmt)

/-- The digest of the sample management app is not zero. -/
theorem allowedAppDigest_managed :
    Device.managed.allowedAppDigest ≠ Vector.replicate 32 0 := by
  decide +kernel

theorem only_management_app_sample :
    ((mgmtAppAuthenticate .managed).run
          (Launch.managed (fun _ => 0) .zero).machine =
        .ok true (Launch.managed (fun _ => 0) .zero).machine →
      ManagementStart .managed (.managed (fun _ => 0) .zero)) ∧
      ∀ call,
        ManagementCall call →
        ¬ ManagementStart .managed (.managed (fun _ => 0) .zero) →
        (syscallHandler .managed call).run
            (Launch.managed (fun _ => 0) .zero).machine =
          .ok (-1) (Launch.managed (fun _ => 0) .zero).machine :=
  only_management_app allowedAppDigest_managed
    (run_managed (fun _ => 0) .zero rfl)

end TKey
