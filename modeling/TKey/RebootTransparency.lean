import TKey.Agreement
import TKey.MeasuredStart
import TKey.StorageView

namespace TKey

open ByteMemory NorFlash

/-!
# Reboot transparency

After a boot from the first copy, every system call leaves the table in
`FW_RAM` as a boot would load it.  A run of the device is therefore a session
of the calls in it, and resets in between change nothing that a later call or
a later boot can find out.
-/

section Settled

/-- A machine as a boot from the first copy of the table leaves it. -/
structure Machine.Settled (m : Machine) : Prop where
  usable : usableCopy m.flash.memory = some .first
  inSync : m.InSync
  status : m.partStatus = 0

@[simp] theorem Machine.partTableStorage_withCopy
    (copy : TableCopy)
    (m : Machine) :
    (m.withCopy copy).partTableStorage = loadCopy m.flash.memory copy := by
  unfold withCopy
  rfl

@[simp] theorem Machine.partStatus_withFirst (m : Machine) :
    (m.withCopy .first).partStatus = m.partStatus := by
  unfold withCopy
  rfl

@[simp] theorem Machine.partStatus_entered
    (chip : FlashChip)
    (scrambled : Memory)
    (info : Reset) :
    (Machine.entered chip scrambled info).partStatus = 0 := by
  simp only [Machine.entered]

/-- A boot from the first copy. -/
theorem Machine.settled_entered
    {chip : FlashChip}
    (usable : usableCopy chip.memory = some .first)
    (scrambled : Memory)
    (info : Reset) :
    ((Machine.entered chip scrambled info).withCopy .first).Settled where
  usable := by
    rw [flash_withCopy, flash_entered]
    exact usable
  inSync := by
    apply inSync_withCopy
    rw [flash_entered]
    exact usable
  status := by
    rw [partStatus_withFirst, partStatus_entered]

/-- A boot of a settled machine finds the store as it is. -/
theorem Machine.Settled.sameStore_entered
    {m : Machine}
    (settled : m.Settled)
    (scrambled : Memory)
    (info : Reset) :
    Machine.SameStore
      ((Machine.entered m.flash scrambled info).withCopy .first) m := by
  have loads := settled.inSync
  rw [InSync, loadTable, settled.usable, Option.map_some] at loads
  constructor
  · rw [flash_withCopy, flash_entered]
  · rw [partTableStorage_withCopy, flash_entered]
    exact Option.some.inj loads

/-- A machine that only differs in app RAM or its reset record is settled. -/
theorem Machine.Settled.of_sameStore
    {left right : Machine}
    (settled : right.Settled)
    (same : left.SameStore right)
    (status : left.partStatus = right.partStatus) :
    left.Settled where
  usable := by
    rw [same.1]
    exact settled.usable
  inSync := same.inSync settled.inSync
  status := status.trans settled.status

/-- No system call changes `part_status`. -/
theorem Outcome.partStatus
    {device : Device}
    {call : Call}
    {m : Machine}
    {result : EStateM.Result Stop Machine Int}
    (outcome : Outcome device call m result) :
    (resultMachine result).partStatus = m.partStatus := by
  cases outcome <;>
    simp only [resultMachine, Machine.updateTable, Machine.perform]

/-- A system call leaves a settled machine settled. -/
theorem Outcome.settled
    {device : Device}
    {call : Call}
    {m : Machine}
    {result : EStateM.Result Stop Machine Int}
    (outcome : Outcome device call m result)
    (settled : m.Settled) :
    (resultMachine result).Settled where
  usable := by
    rcases outcome.tables with ⟨copies, _⟩ | ⟨table, holds⟩
    · rw [usableCopy, copies, ← usableCopy]
      exact settled.usable
    · exact holds.inSync.2
  inSync := outcome.inSync settled.inSync
  status := outcome.partStatus.trans settled.status

end Settled

section Sessions

/-- Asking for the data of the previous app keeps the store. -/
theorem getAppData_sameStore
    {device : Device}
    {call : Call}
    (isCall : SyscallNum.ofWord call.number = some .getAppData)
    (m : Machine) :
    (resultMachine ((syscallHandler device call).run m)).SameStore m := by
  rw [syscallHandler, isCall]
  simp only
  rw [resetData_run]
  split
  · exact m.sameStore_ram _
  · exact .refl m

/-- A call on machines that agree leaves the same store. -/
theorem syscallHandler_sameStore
    {left right : Machine}
    (agrees : left.Agrees right)
    (device : Device)
    (call : Call) :
    (resultMachine ((syscallHandler device call).run left)).SameStore
      (resultMachine ((syscallHandler device call).run right)) := by
  by_cases appData : SyscallNum.ofWord call.number = some .getAppData
  · exact
      ((getAppData_sameStore appData left).trans agrees.store).trans
        (getAppData_sameStore appData right).symm
  · exact (syscallHandler_agrees agrees appData).machines.store

/-- An app that runs on a machine does not unsettle it. -/
theorem Machine.Settled.enter
    {m : Machine}
    (settled : m.Settled)
    (app : App) :
    (m.enter app).Settled :=
  settled.of_sameStore (m.sameStore_enter app) rfl

/-- Settled machines with the same store agree for every app. -/
theorem Machine.agrees_enter
    {left right : Machine}
    (same : left.SameStore right)
    (leftSettled : left.Settled)
    (rightSettled : right.Settled)
    (app : App) :
    (left.enter app).Agrees (right.enter app) where
  store :=
    ((left.sameStore_enter app).trans same).trans
      (right.sameStore_enter app).symm
  status := leftSettled.status.trans rightSettled.status.symm
  app := by
    rw [runningApp_enter, runningApp_enter]

/-- The step of a session that an event of a run is. -/
def System.action (system : System) (event : Event) : Option Action :=
  match system, event with
  | _, .powerUp _ scrambled _ => some (.reboot scrambled)
  | .running _ m, .syscall call _ => some (.call m.runningApp call)
  | _, _ => none

/-- The session of a run: the system calls in it and the power-ups. -/
def System.session
    (device : Device)
    (system : System) : List Event → List Action
  | [] => []
  | event :: rest =>
      (system.action event).toList ++
        session device (System.step device system event) rest

/-- Every power-up finds flash as it was. -/
def System.KeepsFlash
    (device : Device)
    (system : System) : List Event → Prop
  | [] => True
  | event :: rest =>
      (∀ chip scrambled info,
        event = .powerUp chip scrambled info →
        chip = system.machine.flash) ∧
        KeepsFlash device (System.step device system event) rest

/-- A settled machine is booted again with the store that it has. -/
theorem Machine.Settled.boot
    {m : Machine}
    (settled : m.Settled)
    (scrambled : Memory)
    (info : Reset) :
    (System.boot m.flash scrambled info).machine.Settled ∧
      (System.boot m.flash scrambled info).machine.SameStore m := by
  rw [boot_of_usable settled.usable, System.machine]
  exact
    ⟨settled_entered settled.usable scrambled info,
      settled.sameStore_entered scrambled info⟩

/-- What goes on after a system call has the store that the call left. -/
theorem afterSyscall_settled
    {result : EStateM.Result Stop Machine Int}
    (settled : (resultMachine result).Settled)
    (launch : Launch)
    (scrambled : Memory) :
    (System.afterSyscall launch scrambled result).machine.Settled ∧
      (System.afterSyscall launch scrambled result).machine.SameStore
        (resultMachine result) := by
  rcases result with ⟨value, m⟩ | ⟨stop, m⟩
  · exact ⟨settled, .refl m⟩
  · cases stop with
    | systemReset =>
        exact settled.boot scrambled m.resetinfo
    | halt =>
        exact ⟨settled, .refl m⟩
    | fault =>
        exact ⟨settled, .refl m⟩

/-- A session of one step. -/
theorem Action.run_toList (device : Device) (m : Machine) (action : Action) :
    run device m (some action).toList = action.step device m :=
  rfl

/-- An event does to the store what its step of the session does. -/
theorem step_session
    {device : Device}
    {system : System}
    (settled : system.machine.Settled)
    {event : Event}
    (keepsFlash :
      ∀ chip scrambled info,
        event = .powerUp chip scrambled info →
        chip = system.machine.flash) :
    (System.step device system event).machine.Settled ∧
      ∀ m : Machine,
        m.Settled →
        system.machine.SameStore m →
        (System.step device system event).machine.SameStore
          (Action.run device m (system.action event).toList) := by
  have unchanged
      (silent : system.action event = none)
      (same :
        (System.step device system event).machine.SameStore
          system.machine)
      (status :
        (System.step device system event).machine.partStatus =
          system.machine.partStatus) :
      (System.step device system event).machine.Settled ∧
        ∀ m : Machine,
          m.Settled →
          system.machine.SameStore m →
          (System.step device system event).machine.SameStore
            (Action.run device m (system.action event).toList) := by
    refine ⟨settled.of_sameStore same status, ?_⟩
    intro m _ sameStore
    rw [silent]
    exact same.trans sameStore
  cases event with
  | powerUp chip scrambled info =>
      have isChip := keepsFlash chip scrambled info rfl
      obtain ⟨after, same⟩ := settled.boot scrambled info
      have step :
          System.step device system (.powerUp chip scrambled info) =
            System.boot system.machine.flash scrambled info := by
        rw [isChip, System.step_powerUp]
      have action :
          system.action (.powerUp chip scrambled info) =
            some (.reboot scrambled) := by
        cases system <;> rfl
      rw [step, action]
      refine ⟨after, ?_⟩
      intro m settledSession sameStore
      have rebooted :=
        Machine.sameStore_reboot settledSession.inSync scrambled
      rw [Action.run_toList, Action.step]
      exact (same.trans sameStore).trans rebooted.symm
  | appWrites ram =>
      cases system with
      | running launch m =>
          exact unchanged rfl (m.sameStore_ram ram) rfl
      | looping requested heard state ctx m =>
          exact unchanged rfl (.refl m) rfl
      | stopped m =>
          exact unchanged rfl (.refl m) rfl
  | iteration incoming =>
      cases system with
      | running launch m =>
          exact unchanged rfl (.refl m) rfl
      | looping requested heard state ctx m =>
          have outcome := iterate_outcome device incoming state ctx m
          have step := System.machine_afterIteration requested
            (System.hearing state incoming heard)
            ((iterate device incoming state ctx).run m)
          apply unchanged rfl
          · rw [System.step, step]
            exact ⟨congrArg FlashChip.memory outcome.sameFlash,
              outcome.sameTable.1⟩
          · rw [System.step, step]
            exact outcome.sameTable.2
      | stopped m =>
          exact unchanged rfl (.refl m) rfl
  | syscall call scrambled =>
      cases system with
      | running launch m =>
          have outcome := syscallHandler_outcome device call m
          obtain ⟨after, same⟩ :=
            afterSyscall_settled (outcome.settled settled) launch scrambled
          refine ⟨after, ?_⟩
          intro n settledSession sameStore
          have agrees :=
            Machine.agrees_enter sameStore settled settledSession
              m.runningApp
          have left :=
            inSync_callResult device m.runningApp call
              settledSession.inSync
          exact
            (same.trans
              (syscallHandler_sameStore agrees device call)).trans
              (sameStore_afterCall left).symm
      | looping requested heard state ctx m =>
          exact unchanged rfl (.refl m) rfl
      | stopped m =>
          exact unchanged rfl (.refl m) rfl

/-- A reboot of a settled machine. -/
theorem Machine.Settled.reboot
    {m : Machine}
    (settled : m.Settled)
    (scrambled : Memory) :
    (m.reboot scrambled).Settled := by
  rw [reboot_of_usable settled.usable]
  exact settled_entered settled.usable scrambled m.resetinfo

/-- A step of a session leaves a settled machine settled. -/
theorem Action.settled_step
    (device : Device)
    {m : Machine}
    (settled : m.Settled)
    (action : Action) :
    (action.step device m).Settled := by
  cases action with
  | call app request =>
      have after :=
        (callResult_outcome device app request m).settled
          (settled.enter app)
      rw [step]
      cases result : callResult device app request m with
      | ok value m' =>
          rw [result] at after
          exact after
      | error stop m' =>
          rw [result] at after
          exact after.reboot m'.ram
  | reboot scrambled =>
      exact settled.reboot scrambled

/-- The store at the end of a run is that of its session. -/
theorem run_session
    {device : Device}
    {events : List Event}
    {system : System}
    (settled : system.machine.Settled)
    (keepsFlash : System.KeepsFlash device system events)
    {m : Machine}
    (settledSession : m.Settled)
    (sameStore : system.machine.SameStore m) :
    (System.run device system events).machine.Settled ∧
      (System.run device system events).machine.SameStore
        (Action.run device m (System.session device system events)) := by
  induction events generalizing system m with
  | nil =>
      exact ⟨settled, sameStore⟩
  | cons event rest inductionHypothesis =>
      obtain ⟨after, same⟩ := step_session settled keepsFlash.1
      rw [System.run_cons, System.session, Action.run_append]
      apply inductionHypothesis after keepsFlash.2
      · cases system.action event with
        | none =>
            exact settledSession
        | some action =>
            exact Action.settled_step device settledSession action
      · exact same m settledSession sameStore

/-- A reset between two system calls, by the power supply or on request. -/
inductive Action.IsReset : Action → Prop where
  | powerCycle (scrambled : Memory) : IsReset (.reboot scrambled)
  | request (app : App) (call : Call)
      (isCall : SyscallNum.ofWord call.number = some .reset)
      (accepts : AcceptsReset call.arg1 call.arg2) :
      IsReset (.call app call)

/-- A session and the same session with resets inserted. -/
inductive ResetsInserted : List Action → List Action → Prop where
  | nil : ResetsInserted [] []
  | keep {base extended : List Action}
      (action : Action)
      (rest : ResetsInserted base extended) :
      ResetsInserted (action :: base) (action :: extended)
  | insert {base extended : List Action}
      (action : Action)
      (isReset : action.IsReset)
      (rest : ResetsInserted base extended) :
      ResetsInserted base (action :: extended)

/-- A reset changes nothing in the store of a settled machine. -/
theorem Action.IsReset.sameStore
    {device : Device}
    {action : Action}
    (isReset : action.IsReset)
    {m : Machine}
    (settled : m.Settled) :
    (action.step device m).SameStore m := by
  cases isReset with
  | powerCycle scrambled =>
      exact Machine.sameStore_reboot settled.inSync scrambled
  | request app call isCall accepts =>
      have stored :
          (resultMachine (callResult device app call m)).SameStore
            (m.enter app) := by
        rw [callResult, syscallHandler, isCall]
        simp only
        rw [reset_run, if_pos accepts]
        exact (m.enter app).sameStore_resetinfo _
      have left := inSync_callResult device app call settled.inSync
      exact
        ((sameStore_afterCall left).trans stored).trans
          (m.sameStore_enter app)

/-- The same step keeps the stores of two machines equal. -/
theorem Action.sameStore_step
    {device : Device}
    {left right : Machine}
    (same : left.SameStore right)
    (leftSettled : left.Settled)
    (rightSettled : right.Settled)
    (action : Action) :
    (action.step device left).SameStore (action.step device right) := by
  cases action with
  | call app request =>
      have agrees :=
        Machine.agrees_enter same leftSettled rightSettled app
      have leftSync :=
        inSync_callResult device app request leftSettled.inSync
      have rightSync :=
        inSync_callResult device app request rightSettled.inSync
      exact
        ((sameStore_afterCall leftSync).trans
          (syscallHandler_sameStore agrees device request)).trans
          (sameStore_afterCall rightSync).symm
  | reboot scrambled =>
      exact
        ((Machine.sameStore_reboot leftSettled.inSync scrambled).trans
          same).trans
          (Machine.sameStore_reboot rightSettled.inSync scrambled).symm

/-- Inserted resets leave the store as it would be without them. -/
theorem ResetsInserted.sameStore
    {device : Device}
    {base extended : List Action}
    (inserted : ResetsInserted base extended)
    {left right : Machine}
    (same : left.SameStore right)
    (leftSettled : left.Settled)
    (rightSettled : right.Settled) :
    (Action.run device left base).SameStore
      (Action.run device right extended) := by
  induction inserted generalizing left right with
  | nil =>
      exact same
  | keep action rest inductionHypothesis =>
      rw [Action.run_cons, Action.run_cons]
      exact
        inductionHypothesis
          (Action.sameStore_step same leftSettled rightSettled action)
          (action.settled_step device leftSettled)
          (action.settled_step device rightSettled)
  | insert action isReset rest inductionHypothesis =>
      rw [Action.run_cons]
      exact
        inductionHypothesis
          (same.trans (isReset.sameStore rightSettled).symm)
          leftSettled (action.settled_step device rightSettled)

end Sessions

section Transparency

/-- Machines that agree load the same app from a slot. -/
theorem preloadLoad_agrees
    {left right : Machine}
    (agrees : left.Agrees right)
    (slot : Fin 2) :
    ResultsAgree ((preloadLoad (slotByte slot)).run left)
      ((preloadLoad (slotByte slot)).run right) := by
  have app : left.table.app slot = right.table.app slot := by
    rw [agrees.table]
  by_cases empty : (right.table.app slot).size = 0
  · rw [preloadLoad_run_empty empty,
      preloadLoad_run_empty (by rw [app]; exact empty)]
    exact .returns _ agrees
  by_cases fits : (right.table.app slot).size.toNat ≤ 0x20000
  · rw [preloadLoad_run empty fits,
      preloadLoad_run (by rw [app]; exact empty) (by rw [app]; exact fits),
      app, ← agrees.ram, ← agrees.memory]
    exact .returns 0 (agrees.withRam _)
  · have large : 0x20000 < (right.table.app slot).size.toNat :=
      Nat.lt_of_not_le fits
    rw [preloadLoad_run_large large,
      preloadLoad_run_large (by rw [app]; exact large)]
    exact .stops .fault agrees

/-- Reading the table again finds it as it is. -/
theorem Machine.Settled.partTableRead_run
    {m : Machine}
    (settled : m.Settled) :
    partTableRead.run m = .ok 0 m := by
  have loads := settled.inSync
  rw [InSync, loadTable, settled.usable, Option.map_some] at loads
  have same : m.withCopy .first = m := by
    unfold withCopy
    rw [Option.some.inj loads]
  rw [partTableRead_usable, settled.usable]
  simp only [same]

/-- The table of a settled machine verifies. -/
theorem Machine.Settled.verified
    {m : Machine}
    (settled : m.Settled) :
    m.partTableStorage.Verified := by
  have loads := settled.inSync
  rw [InSync, loadTable, settled.usable, Option.map_some] at loads
  rw [← Option.some.inj loads]
  have usable := settled.usable
  rw [usableCopy] at usable
  split at usable
  · assumption
  · split at usable <;> cases usable

/-- The store after a run from a boot that has used the first copy. -/
theorem fromBoot_session
    {device : Device}
    {chip : FlashChip}
    (usable : usableCopy chip.memory = some .first)
    (scrambled : Memory)
    (info : Reset)
    {events : List Event}
    (keepsFlash :
      System.KeepsFlash device (System.boot chip scrambled info) events) :
    (System.fromBoot device chip scrambled info events).machine.Settled ∧
      (System.fromBoot device chip scrambled info
        events).machine.SameStore
        (Action.run device
          ((Machine.entered chip scrambled info).withCopy .first)
          (System.session device (System.boot chip scrambled info)
            events)) := by
  have settled := Machine.settled_entered usable scrambled info
  have machine :
      (System.boot chip scrambled info).machine =
        (Machine.entered chip scrambled info).withCopy .first := by
    rw [boot_of_usable usable, System.machine]
  rw [System.fromBoot]
  apply run_session _ keepsFlash settled
  · rw [machine]
    exact .refl _
  · rw [machine]
    exact settled

/--
Reboot transparency: after a boot whose first copy of the table verified, the
table in `FW_RAM` is always the one that a boot would load, and a run with
resets inserted gives the same answers and loads the same apps.
-/
theorem reboot_transparency
    {device : Device}
    {chip : FlashChip}
    (verified : (loadCopy chip.memory .first).Verified)
    {scrambled : Memory}
    {info : Reset}
    {events : List Event}
    (keepsFlash :
      System.KeepsFlash device (System.boot chip scrambled info) events) :
    let m := (System.fromBoot device chip scrambled info events).machine
    partTableRead.run m = .ok 0 m ∧
      m.partTableStorage.Verified ∧
      ∀ extended,
        System.KeepsFlash device (System.boot chip scrambled info)
          extended →
        ResetsInserted
          (System.session device (System.boot chip scrambled info) events)
          (System.session device (System.boot chip scrambled info)
            extended) →
        let n :=
          (System.fromBoot device chip scrambled info extended).machine
        (∀ app call,
            SyscallNum.ofWord call.number ≠ some .getAppData →
            reply (callResult device app call m) =
              reply (callResult device app call n)) ∧
          ∀ app slot,
            reply ((preloadLoad (slotByte slot)).run (m.enter app)) =
              reply ((preloadLoad (slotByte slot)).run (n.enter app)) := by
  have usable : usableCopy chip.memory = some .first := by
    rw [usableCopy, if_pos verified]
  obtain ⟨settled, session⟩ :=
    fromBoot_session usable scrambled info keepsFlash
  intro m
  refine ⟨settled.partTableRead_run, settled.verified, ?_⟩
  intro extended keepsFlashExtended inserted n
  obtain ⟨settledExtended, sessionExtended⟩ :=
    fromBoot_session usable scrambled info keepsFlashExtended
  have start := Machine.settled_entered usable scrambled info
  have same : m.SameStore n :=
    (session.trans (inserted.sameStore (.refl _) start start)).trans
      sessionExtended.symm
  have agrees (app : App) : (m.enter app).Agrees (n.enter app) :=
    Machine.agrees_enter same settled settledExtended app
  constructor
  · intro app call notAppData
    exact (syscallHandler_agrees (agrees app) notAppData).reply_eq
  · intro app slot
    exact (preloadLoad_agrees (agrees app) slot).reply_eq

end Transparency

section Samples

/-- The management app is started and allocates an area. -/
def allocatingBoot : List Event :=
  flashBoot ++ [.syscall (.plain .allocArea) fun _ => 0]

/-- The app is running then, and an area is in use. -/
theorem run_allocatingBoot :
    ∃ launch m,
      System.fromBoot .managed (.provisioned (.withApp 0)) (fun _ => 0) .zero
          allocatingBoot =
        .running launch m ∧
        m.table.InUse 0 := by
  obtain ⟨launch, isLaunch⟩ :
      ∃ launch, launch = Launch.managed (fun _ => 0) .zero :=
    ⟨_, rfl⟩
  have same :
      launch.machine.SameStore (.booted (.withApp 0) (fun _ => 0) .zero) := by
    rw [isLaunch]
    exact sameStore_flashLaunch
  have free : ∀ index, ¬ launch.machine.table.InUse index := by
    rw [same.table, Machine.table_booted]
    exact not_inUse_sample
  have allocates :=
    @syscallHandler_allocArea .managed (.plain .allocArea) rfl launch.machine
  rw [allocation_of_free free] at allocates
  refine
    ⟨launch,
      launch.machine.updateTable (areaErase 0)
        (launch.machine.table.setArea 0
          (allocatedArea launch.machine.cdi plainWords)) [],
      ?_, ?_⟩
  · rw [System.fromBoot, allocatingBoot, System.run_append,
      ← System.fromBoot, run_managed (fun _ => 0) .zero rfl, ← isLaunch,
      System.run_cons, System.step, allocates]
    rfl
  · rw [Machine.table_updateTable, PartitionTable.InUse,
      PartitionTable.getElem_setArea_self]
    exact fun free : (1 : UInt8) = 0 => absurd free (by decide)

theorem System.keepsFlash_append
    {device : Device}
    {system : System}
    {earlier later : List Event} :
    System.KeepsFlash device system (earlier ++ later) ↔
      System.KeepsFlash device system earlier ∧
        System.KeepsFlash device (System.run device system earlier) later := by
  induction earlier generalizing system with
  | nil =>
      exact ⟨fun keeps => ⟨trivial, keeps⟩, And.right⟩
  | cons event rest inductionHypothesis =>
      rw [List.cons_append, KeepsFlash, KeepsFlash, inductionHypothesis,
        System.run_cons, and_assoc]

theorem System.session_append
    (device : Device)
    (system : System)
    (earlier later : List Event) :
    System.session device system (earlier ++ later) =
      System.session device system earlier ++
        System.session device (System.run device system earlier) later := by
  induction earlier generalizing system with
  | nil =>
      rfl
  | cons event rest inductionHypothesis =>
      rw [List.cons_append, session, session, inductionHypothesis,
        System.run_cons, List.append_assoc]

/-- A reset at the end of a session. -/
theorem ResetsInserted.snoc
    {action : Action}
    (isReset : action.IsReset)
    (base : List Action) :
    ResetsInserted base (base ++ [action]) := by
  induction base with
  | nil =>
      exact .insert action isReset .nil
  | cons first rest inductionHypothesis =>
      exact .keep first inductionHypothesis

/-- An app has allocated an area, and then the device loses power. -/
theorem reboot_transparency_sample :
    let reached :=
      System.fromBoot .managed (.provisioned (.withApp 0)) (fun _ => 0) .zero
    ∃ launch m,
      reached allocatingBoot = .running launch m ∧
        m.table.InUse 0 ∧
        partTableRead.run m = .ok 0 m ∧
        ∀ app call,
          SyscallNum.ofWord call.number ≠ some .getAppData →
          reply (callResult .managed app call m) =
            reply
              (callResult .managed app call
                (reached
                  (allocatingBoot ++
                    [.powerUp m.flash (fun _ => 1) .zero])).machine) := by
  obtain ⟨launch, m, boots, inUse⟩ := run_allocatingBoot
  have verified :
      (loadCopy (FlashChip.provisioned (.withApp 0)).memory
        .first).Verified := by
    rw [loadCopy_provisioned]
    exact (PartitionTable.withApp 0).sealed_verified
  have keepsFlash :
      System.KeepsFlash .managed
        (System.boot (.provisioned (.withApp 0)) (fun _ => 0) .zero)
        allocatingBoot := by
    simp [System.KeepsFlash, allocatingBoot, flashBoot]
  have keepsExtended :
      System.KeepsFlash .managed
        (System.boot (.provisioned (.withApp 0)) (fun _ => 0) .zero)
        (allocatingBoot ++ [.powerUp m.flash (fun _ => 1) .zero]) := by
    rw [System.keepsFlash_append, ← System.fromBoot, boots]
    refine ⟨keepsFlash, ?_, trivial⟩
    rintro chip scrambled info ⟨⟩
    rfl
  have inserted :
      ResetsInserted
        (System.session .managed
          (System.boot (.provisioned (.withApp 0)) (fun _ => 0) .zero)
          allocatingBoot)
        (System.session .managed
          (System.boot (.provisioned (.withApp 0)) (fun _ => 0) .zero)
          (allocatingBoot ++ [.powerUp m.flash (fun _ => 1) .zero])) := by
    rw [System.session_append, ← System.fromBoot, boots]
    exact .snoc (.powerCycle _) _
  have transparent := reboot_transparency verified keepsFlash
  rw [boots] at transparent
  exact
    ⟨launch, m, boots, inUse, transparent.1,
      (transparent.2.2 _ keepsExtended inserted).1⟩

end Samples

end TKey
