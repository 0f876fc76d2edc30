import TKey.Main

namespace TKey

open ByteMemory

/-!
# The device over time

A device runs the firmware main loop, then an app that makes system calls,
until a system reset or a power-up starts the firmware again.  The events of a
run are chosen by the environment: the frames of the client, the app, the
random numbers and the power supply.
-/

/-- The loop state expects a frame from the client. -/
def FwState.reads : FwState → Bool
  | .waitcommand => true
  | .loading => true
  | _ => false

/-- How the running app came to be started. -/
structure Launch where
  /-- The reset record that the firmware found. -/
  requested : Reset
  /-- The frames that it read. -/
  heard : List Incoming
  /-- Its context when it jumped to the app. -/
  ctx : Context
  /-- The machine when it jumped to the app. -/
  machine : Machine

/-- The phases of a device. -/
inductive System where
  /-- The firmware is in its main loop. -/
  | looping
      (requested : Reset)
      (heard : List Incoming)
      (state : FwState)
      (ctx : Context)
      (m : Machine)
  /-- An app is running. -/
  | running (launch : Launch) (m : Machine)
  /-- The CPU has stopped. -/
  | stopped (m : Machine)

/-- The machine in any phase. -/
def System.machine : System → Machine
  | .looping _ _ _ _ m => m
  | .running _ m => m
  | .stopped m => m

/-- What can happen to a device. -/
inductive Event where
  /-- The main loop goes round once; a frame is there for it to read. -/
  | iteration (incoming : Incoming)
  /-- The app changes its RAM. -/
  | appWrites (ram : Memory)
  /-- The app makes a system call; a reset scrambles app RAM. -/
  | syscall (call : Call) (scrambled : Memory)
  /-- The device is powered up, with anything in flash. -/
  | powerUp (chip : FlashChip) (scrambled : Memory) (info : Reset)

/-- The event is a power-up. -/
def Event.IsPowerUp : Event → Prop
  | .powerUp _ _ _ => True
  | _ => False

namespace System

/-- The main loop is entered when the setup before it succeeds. -/
def afterSetup : EStateM.Result Stop Machine Unit → System
  | .ok _ m => .looping m.resetinfo [] .initial Context.initial m
  | .error _ m => .stopped m

/-- The firmware is started after a reset or a power-up. -/
def boot
    (chip : FlashChip)
    (scrambled : Memory)
    (info : Reset) : System :=
  afterSetup (mainSetup.run (Machine.entered chip scrambled info))

/-- An iteration of the main loop continues, starts the app or stops. -/
def afterIteration
    (requested : Reset)
    (heard : List Incoming) :
    EStateM.Result Stop Machine Next → System
  | .ok (.loop state ctx) m => .looping requested heard state ctx m
  | .ok (.jump ctx) m =>
      .running
        { requested := requested
          heard := heard
          ctx := ctx
          machine := m } m
  | .error _ m => .stopped m

/-- A system call returns to the app, resets the system or stops. -/
def afterSyscall
    (launch : Launch)
    (scrambled : Memory) :
    EStateM.Result Stop Machine Int → System
  | .ok _ m => .running launch m
  | .error .systemReset m => boot m.flash scrambled m.resetinfo
  | .error _ m => .stopped m

/-- The frames read so far when the loop goes round in a state. -/
def hearing
    (state : FwState)
    (incoming : Incoming)
    (heard : List Incoming) : List Incoming :=
  if state.reads then heard ++ [incoming] else heard

/-- The effect of an event; events that do not fit the phase do nothing. -/
def step (device : Device) : System → Event → System
  | _, .powerUp chip scrambled info =>
      boot chip scrambled info
  | .looping requested heard state ctx m, .iteration incoming =>
      afterIteration requested (hearing state incoming heard)
        ((iterate device incoming state ctx).run m)
  | .running launch m, .appWrites ram =>
      .running launch { m with ram := ram }
  | .running launch m, .syscall call scrambled =>
      afterSyscall launch scrambled ((syscallHandler device call).run m)
  | system, _ => system

/-- A power-up boots the device in any phase. -/
theorem step_powerUp
    (device : Device)
    (system : System)
    (chip : FlashChip)
    (scrambled : Memory)
    (info : Reset) :
    step device system (.powerUp chip scrambled info) =
      boot chip scrambled info := by
  cases system <;> rfl

/-- The effect of a sequence of events. -/
def run (device : Device) (system : System) (events : List Event) :
    System :=
  events.foldl (step device) system

@[simp] theorem run_nil (device : Device) (system : System) :
    run device system [] = system :=
  rfl

@[simp] theorem run_cons
    (device : Device)
    (system : System)
    (event : Event)
    (rest : List Event) :
    run device system (event :: rest) =
      run device (step device system event) rest :=
  rfl

theorem run_append
    (device : Device)
    (system : System)
    (earlier later : List Event) :
    run device system (earlier ++ later) =
      run device (run device system earlier) later := by
  simp [run, List.foldl_append]

/-- The device after a boot and a sequence of events. -/
def fromBoot
    (device : Device)
    (chip : FlashChip)
    (scrambled : Memory)
    (info : Reset)
    (events : List Event) : System :=
  run device (boot chip scrambled info) events

theorem fromBoot_append_singleton
    (device : Device)
    (chip : FlashChip)
    (scrambled : Memory)
    (info : Reset)
    (earlier : List Event)
    (event : Event) :
    fromBoot device chip scrambled info (earlier ++ [event]) =
      step device (fromBoot device chip scrambled info earlier) event := by
  rw [fromBoot, run_append]
  rfl

/-- What every step keeps holds at the end of every run. -/
theorem run_induction
    {device : Device}
    {invariant : System → Prop}
    (preserved :
      ∀ system event,
        invariant system →
        invariant (step device system event))
    {system : System}
    (initially : invariant system)
    (events : List Event) :
    invariant (run device system events) := by
  induction events generalizing system with
  | nil =>
      exact initially
  | cons event rest inductionHypothesis =>
      exact inductionHypothesis (preserved system event initially)

end System

section Boot

/-- The machine after `part_table_read` has loaded a copy of the table. -/
def Machine.withCopy (copy : TableCopy) (m : Machine) : Machine :=
  { m with
    partTableStorage := loadCopy m.flash.memory copy
    partStatus :=
      match copy with
      | .first => m.partStatus
      | .second => 1 }

@[simp] theorem Machine.resetinfo_withCopy
    (copy : TableCopy)
    (m : Machine) :
    (m.withCopy copy).resetinfo = m.resetinfo := by
  unfold Machine.withCopy
  rfl

/-- The machine after neither copy of the table verified. -/
def Machine.withoutCopy (m : Machine) : Machine :=
  { m with partTableStorage := loadCopy m.flash.memory .second }

@[simp] theorem Machine.flash_entered
    (chip : FlashChip)
    (scrambled : Memory)
    (info : Reset) :
    (Machine.entered chip scrambled info).flash = chip := by
  simp only [Machine.entered]

/-- Loading a table does not change flash. -/
private theorem flash_load
    (storage : PartitionTableStorage)
    (status : UInt32)
    (m : Machine) :
    Machine.flash
        { m with partTableStorage := storage, partStatus := status } =
      m.flash :=
  rfl

@[simp] theorem Machine.flash_withCopy (copy : TableCopy) (m : Machine) :
    (m.withCopy copy).flash = m.flash := by
  unfold withCopy
  exact flash_load _ _ m

@[simp] theorem Machine.flash_withoutCopy (m : Machine) :
    m.withoutCopy.flash = m.flash := by
  unfold withoutCopy
  exact flash_load _ _ m

/-- Reading the table succeeds when one of the copies can be used. -/
theorem partTableRead_usable (m : Machine) :
    partTableRead.run m =
      match usableCopy m.flash.memory with
      | some copy => .ok 0 (m.withCopy copy)
      | none => .ok (-1) m.withoutCopy := by
  rw [partTableRead_run]
  cases usableCopy m.flash.memory with
  | none =>
      rfl
  | some copy =>
      cases copy <;> rfl

/-- Setup fails unless one of the copies can be used. -/
theorem mainSetup_run (m : Machine) :
    mainSetup.run m =
      match usableCopy m.flash.memory with
      | some copy => .ok () (m.withCopy copy)
      | none => .error .halt m.withoutCopy := by
  have result := partTableRead_usable m
  rw [mainSetup]
  cases used : usableCopy m.flash.memory with
  | none =>
      rw [used] at result
      rw [Fw.run_bind_of_ok result, Fw.assert, if_neg (by decide)]
      rfl
  | some copy =>
      rw [used] at result
      rw [Fw.run_bind_of_ok result, Fw.run_assert rfl]

/-- Setup from a machine with a usable copy of the table. -/
private theorem afterSetup_of_usable
    {m : Machine}
    {copy : TableCopy}
    (usable : usableCopy m.flash.memory = some copy) :
    System.afterSetup (mainSetup.run m) =
      .looping m.resetinfo [] .initial Context.initial
        (m.withCopy copy) := by
  rw [mainSetup_run, usable]
  simp only [System.afterSetup, Machine.resetinfo_withCopy]

/-- A boot with a usable copy of the table enters the main loop. -/
theorem boot_of_usable
    {chip : FlashChip}
    {copy : TableCopy}
    (usable : usableCopy chip.memory = some copy)
    (scrambled : Memory)
    (info : Reset) :
    System.boot chip scrambled info =
      .looping info [] .initial Context.initial
        ((Machine.entered chip scrambled info).withCopy copy) := by
  unfold System.boot
  exact afterSetup_of_usable usable

/-- A boot without a usable copy of the table stops. -/
theorem boot_of_unusable
    {chip : FlashChip}
    (unusable : usableCopy chip.memory = none)
    (scrambled : Memory)
    (info : Reset) :
    System.boot chip scrambled info =
      .stopped (Machine.entered chip scrambled info).withoutCopy := by
  have stops (m : Machine) (none : usableCopy m.flash.memory = none) :
      System.afterSetup (mainSetup.run m) = .stopped m.withoutCopy := by
    rw [mainSetup_run, none]
    rfl
  unfold System.boot
  exact stops _ unusable

/-- A boot leaves the chip as it was. -/
theorem flash_boot
    (chip : FlashChip)
    (scrambled : Memory)
    (info : Reset) :
    (System.boot chip scrambled info).machine.flash = chip := by
  cases usable : usableCopy chip.memory with
  | none =>
      rw [boot_of_unusable usable]
      simp only [System.machine, Machine.flash_withoutCopy,
        Machine.flash_entered]
  | some copy =>
      rw [boot_of_usable usable]
      simp only [System.machine, Machine.flash_withCopy,
        Machine.flash_entered]

end Boot

section Results

/-- The machine that a firmware function leaves. -/
def resultMachine {α : Type} : EStateM.Result Stop Machine α → Machine
  | .ok _ m => m
  | .error _ m => m

/-- The main loop goes on with the machine that an iteration leaves. -/
theorem System.machine_afterIteration
    (requested : Reset)
    (heard : List Incoming)
    (result : EStateM.Result Stop Machine Next) :
    (System.afterIteration requested heard result).machine =
      resultMachine result := by
  rcases result with ⟨next, m⟩ | ⟨stop, m⟩
  · cases next <;> rfl
  · rfl

/-- Flash is what a system call left, also after a reset. -/
theorem System.flash_afterSyscall
    (launch : Launch)
    (scrambled : Memory)
    (result : EStateM.Result Stop Machine Int) :
    (System.afterSyscall launch scrambled result).machine.flash =
      (resultMachine result).flash := by
  rcases result with ⟨value, m⟩ | ⟨stop, m⟩
  · rfl
  · cases stop with
    | systemReset =>
        exact flash_boot m.flash scrambled m.resetinfo
    | halt =>
        rfl
    | fault =>
        rfl

end Results

section Samples

/-- A device for runs on concrete inputs. -/
def Device.sample : Device where
  uds := Vector.ofFn fun index => UInt8.ofNat index.val
  udi := #v[0x01337080, 1]
  name0 := 0x746b3120
  name1 := 0x6d6b6466
  version := 6
  allowedAppDigest := Vector.replicate 32 1

/-- The table of a device without a second app and without areas in use. -/
def PartitionTable.sample : PartitionTable where
  version := 1
  preAppData :=
    Vector.replicate 2
      { size := 0
        digest := Vector.replicate 32 0
        signature := Vector.replicate 64 0
        pubkey := Vector.replicate 32 0 }
  appStorage := Vector.replicate 4 freeArea

theorem not_inUse_sample (index : Fin 4) :
    ¬ PartitionTable.sample.InUse index := by
  revert index
  decide

/-- An otherwise erased chip with two copies of a table. -/
def FlashChip.provisioned (table : PartitionTable) : FlashChip where
  memory :=
    NorFlash.run (tableCommands table.sealed) fun _ => 0xFF
  writeEnabled := false
  sent := []

/-- A boot of a provisioned chip uses the first copy of the table. -/
theorem usableCopy_provisioned (table : PartitionTable) :
    usableCopy (FlashChip.provisioned table).memory = some .first :=
  usableCopy_run_tableCommands table.sealed_verified _

theorem loadCopy_provisioned
    (table : PartitionTable)
    (copy : TableCopy) :
    loadCopy (FlashChip.provisioned table).memory copy = table.sealed :=
  loadCopy_run_tableCommands copy table.sealed _

/-- A machine that has booted from a provisioned chip. -/
def Machine.provisioned (table : PartitionTable) : Machine :=
  (Machine.entered (.provisioned table) (fun _ => 0) .zero).withCopy .first

theorem Machine.table_provisioned (table : PartitionTable) :
    (Machine.provisioned table).table = table := by
  have loaded :
      (Machine.provisioned table).partTableStorage = table.sealed :=
    loadCopy_provisioned table .first
  rw [Machine.table, loaded]
  rfl

/-- What the TRNG delivers to the sample calls. -/
def plainWords : Vector UInt32 4 :=
  #v[1, 2, 3, 4]

/-- The call with a number and no arguments. -/
def Call.plain (num : SyscallNum) : Call where
  number := num.word
  arg1 := 0
  arg2 := 0
  arg3 := 0
  words := plainWords

/-- A call for a range of storage and a buffer in app RAM. -/
def Call.ranged (num : SyscallNum) (offset buffer size : UInt32) : Call :=
  { Call.plain num with
    arg1 := offset
    arg2 := buffer
    arg3 := size }

/-- App RAM in which every byte is different from its neighbours. -/
def countingRam : Memory :=
  UInt8.ofNat

end Samples

end TKey
