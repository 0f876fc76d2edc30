import TKey.BootInvariant
import TKey.Session

namespace TKey

open ByteMemory NorFlash

/-!
# Measured start

An app that is started has been measured as it will be executed, has the digest
that was required of it, and gets a CDI that is derived from its identity.
What the main loop refuses never leads to the start of an app.
-/

section Refusals

/-- What the main loop does not accept in a state. -/
inductive Refuses
    (device : Device)
    (requested : Reset)
    (ctx : Context)
    (incoming : Incoming) : FwState → Prop where
  /-- There is no such start type. -/
  | unknownType (noPlan : requested.plan = none) :
      Refuses device requested ctx incoming .initial
  /-- The waiting firmware does not know the command or its length. -/
  | command
      (refused :
        ∀ hdr cmd, readcommand incoming = some (hdr, cmd) →
          ¬ IsQuery hdr cmd ∧ ¬ IsLoadApp hdr cmd) :
      Refuses device requested ctx incoming .waitcommand
  /-- The loading firmware expects a block of the app. -/
  | data
      (refused :
        ∀ hdr cmd, readcommand incoming = some (hdr, cmd) →
          ¬ IsLoadAppData hdr cmd) :
      Refuses device requested ctx incoming .loading
  /-- The app does not have the required digest. -/
  | mismatch (different : ¬ DigestAccepted device requested ctx) :
      Refuses device requested ctx incoming .start

/-- The main loop has given up, or the CPU has stopped. -/
inductive System.Failed : System → Prop where
  | fail {requested : Reset} {heard : List Incoming} {ctx : Context}
      {m : Machine} :
      Failed (.looping requested heard .fail ctx m)
  | stopped (m : Machine) : Failed (.stopped m)

/-- A failed device stays so until it is powered up again. -/
theorem failed_step
    (device : Device)
    {system : System}
    (failed : system.Failed)
    {event : Event}
    (soft : ¬ event.IsPowerUp) :
    (System.step device system event).Failed := by
  cases event with
  | powerUp chip scrambled info =>
      exact absurd trivial soft
  | appWrites ram =>
      cases failed with
      | fail =>
          exact .fail
      | stopped m =>
          exact .stopped m
  | iteration incoming =>
      cases failed with
      | fail =>
          exact .stopped _
      | stopped m =>
          exact .stopped m
  | syscall call scrambled =>
      cases failed with
      | fail =>
          exact .fail
      | stopped m =>
          exact .stopped m

theorem failed_run
    (device : Device)
    {system : System}
    (failed : system.Failed)
    {events : List Event}
    (soft : ∀ event, event ∈ events → ¬ event.IsPowerUp) :
    (System.run device system events).Failed := by
  induction events generalizing system with
  | nil =>
      exact failed
  | cons event rest inductionHypothesis =>
      apply inductionHypothesis
      · exact failed_step device failed (soft event List.mem_cons_self)
      · intro other member
        exact soft other (List.mem_cons_of_mem _ member)

/-- An iteration that refuses something turns to the fail state. -/
theorem Iteration.of_refuses
    {device : Device}
    {requested : Reset}
    {heard : List Incoming}
    {state : FwState}
    {ctx : Context}
    {m : Machine}
    {incoming : Incoming}
    {result : EStateM.Result Stop Machine Next}
    (invariant : LoopInvariant requested heard state ctx m)
    (refuses : Refuses device requested ctx incoming state)
    (iteration : Iteration device incoming ctx m state result) :
    ∃ ctx' m', result = .ok (.loop .fail ctx') m' := by
  have noFlash
      (isFlash : state = .loadFlash ∨ state = .loadFlashMgmt) :
      False := by
    cases refuses <;> rcases isFlash with same | same <;> cases same
  cases iteration with
  | noApp state isFlash missing =>
      exact (noFlash isFlash).elim
  | largeApp state isFlash slot isSlot large =>
      exact (noFlash isFlash).elim
  | loaded slot isSlot sized =>
      exact (noFlash (.inl rfl)).elim
  | loadedMgmt slot isSlot sized =>
      exact (noFlash (.inr rfl)).elim
  | decided =>
      cases refuses with
      | unknownType noPlan =>
          cases invariant with
          | initial fresh =>
              have decision :
                  startDecision m.resetinfo Context.initial =
                    (.fail, Context.initial) := by
                rw [startDecision_initial, fresh.resetinfo, noPlan]
              rw [decision]
              exact ⟨_, _, rfl⟩
  | refusedCommand refused =>
      exact ⟨ctx, m, rfl⟩
  | refusedData refused =>
      exact ⟨ctx, m, rfl⟩
  | answered hdr cmd replies frame harmless =>
      cases refuses with
      | command refused =>
          obtain ⟨noQuery, noLoad⟩ := refused hdr cmd frame
          rcases harmless with query | ⟨loads, _⟩
          · exact absurd query noQuery
          · exact absurd loads noLoad
  | announced hdr cmd replies frame isLoadApp sized =>
      cases refuses with
      | command refused =>
          exact absurd isLoadApp (refused hdr cmd frame).2
  | moreData hdr cmd replies frame isData inRam more =>
      cases refuses with
      | data refused =>
          exact absurd isData (refused hdr cmd frame)
  | lastData hdr cmd replies frame isData inRam last fits =>
      cases refuses with
      | data refused =>
          exact absurd isData (refused hdr cmd frame)
  | dataFault ram outside =>
      cases invariant with
      | loading plan command blocks fresh isPlan isClient transfer
          loading =>
          obtain ⟨inRam, _, fits⟩ := loading.in_ram
          rcases outside with notInRam | large
          · exact absurd inRam notInRam
          · exact absurd fits large
  | started accepted =>
      cases refuses with
      | mismatch different =>
          cases invariant with
          | start resetinfo prepared =>
              rw [resetinfo] at accepted
              exact absurd accepted different
  | rejected mismatch =>
      exact ⟨_, _, rfl⟩
  | failed =>
      cases refuses

/-- What is refused makes the main loop fail. -/
theorem failed_of_refuses
    {device : Device}
    {requested : Reset}
    {heard : List Incoming}
    {state : FwState}
    {ctx : Context}
    {m : Machine}
    {incoming : Incoming}
    (invariant : LoopInvariant requested heard state ctx m)
    (refuses : Refuses device requested ctx incoming state) :
    (System.step device (.looping requested heard state ctx m)
      (.iteration incoming)).Failed := by
  obtain ⟨ctx', m', fails⟩ :=
    (iterate_outcome device incoming state ctx m).of_refuses invariant
      refuses
  rw [System.step, fails]
  exact .fail

end Refusals

section Start

/-- The USS that the frames of a client have brought along. -/
inductive UssGiven (heard : List Incoming) :
    Option (Vector UInt8 32) → Prop where
  /-- The app comes from flash, and no frame was read. -/
  | fromFlash (silent : heard = []) : UssGiven heard none
  | byClient (cmd : Vector UInt8 128) (blocks : List (List UInt8))
      (transfer : Transfer cmd heard blocks) :
      UssGiven heard (announcedUss cmd)

/-- The context of a launch holds the USS that was given. -/
theorem Origin.ussGiven
    {requested : Reset}
    {heard : List Incoming}
    {ctx : Context}
    {m : Machine}
    (origin : Origin requested heard ctx m) :
    UssGiven heard ctx.givenUss := by
  cases origin with
  | flash slot managed verDigest isPlan silent image remembered verified
      noUss =>
      rw [noUss]
      exact .fromFlash silent
  | client cmd blocks verDigest isPlan transfer size image forgotten
      verified uss =>
      rw [uss]
      exact .byClient cmd blocks transfer

/-- The digest that a start type requires of the app. -/
def Reset.requiredDigest
    (device : Device)
    (info : Reset) : Option (Vector UInt8 32) :=
  if info.type = startDefault ∨ info.type = startFlash0 then
    some device.allowedAppDigest
  else if info.type = startFlash0Ver ∨ info.type = startFlash1Ver ∨
      info.type = startClientVer then
    some info.appDigest
  else
    none

/-- The plan of a record has the context check the required digest. -/
theorem requiredDigest_of_plan
    {device : Device}
    {info : Reset}
    {plan : StartPlan}
    (isPlan : info.plan = some plan)
    {ctx : Context}
    (verified : ctx.verDigest = plan.verDigest) :
    requiredDigest device info ctx = info.requiredDigest device := by
  rw [requiredDigest, verified]
  unfold Reset.plan at isPlan
  unfold Reset.requiredDigest
  split_ifs at isPlan with known flash1 flash0Ver flash1Ver client clientVer
  all_goals cases isPlan
  · rw [if_pos known]
    rfl
  · rw [if_neg known, if_neg (by rw [flash1]; decide)]
    rfl
  · rw [if_neg known, if_pos (.inl flash0Ver)]
    rfl
  · rw [if_neg known, if_pos (.inr (.inl flash1Ver))]
    rfl
  · rw [if_neg known, if_neg (by rw [client]; decide)]
    rfl
  · rw [if_neg known, if_pos (.inr (.inr clientVer))]
    rfl

/-- A launched app has the digest that its start type requires. -/
theorem Launched.required
    {device : Device}
    {launch : Launch}
    (launched : Launched device launch)
    {digest : Vector UInt8 32}
    (required :
      launch.requested.requiredDigest device = some digest) :
    launch.ctx.digest = digest := by
  apply launched.accepted
  rw [← required]
  cases launched.prepared.origin with
  | flash slot managed verDigest isPlan silent image remembered verified
      noUss =>
      exact requiredDigest_of_plan isPlan verified
  | client cmd blocks verDigest isPlan transfer size image forgotten
      verified uss =>
      exact requiredDigest_of_plan isPlan verified

/-- `DOMAIN_USS_MASK` and `DOMAIN_MEASURED_ID_MASK`, as far as they apply. -/
def domainByte (withUss seeded : Prop)
    [Decidable withUss]
    [Decidable seeded] : UInt8 :=
  (if withUss then domainUssMask else 0) |||
    (if seeded then domainMeasuredIdMask else 0)

/-- The CDI of a launched app, by what went into it. -/
theorem Launched.cdi_eq
    {device : Device}
    {launch : Launch}
    (launched : Launched device launch) :
    launch.machine.cdi =
      blake2sDigest 32 device.uds.toList
        (cdiMessage
          (domainByte (launch.ctx.givenUss.isSome = true)
            launch.requested.Seeded)
          (if launch.requested.Seeded then launch.requested.measuredId
            else launch.ctx.digest)
          launch.ctx.givenUss) := by
  have domain :
      startDomain launch.requested launch.ctx =
        domainByte (launch.ctx.givenUss.isSome = true)
          launch.requested.Seeded := by
    rw [startDomain, domainByte, Context.givenUss]
    cases launch.ctx.useUss <;> rfl
  rw [launched.cdi, startCdi, domain, startIdentity]

/--
Measured and verified start: an app that runs was measured as it is executed,
has the digest that was required of it and the CDI that belongs to it, and
nothing that the main loop refuses is followed by the start of an app.
-/
theorem measured_start
    (device : Device)
    (chip : FlashChip)
    (scrambled : Memory)
    (info : Reset)
    (events : List Event) :
    (∀ launch m,
        System.fromBoot device chip scrambled info events =
          .running launch m →
        AppSize launch.machine.appSize ∧
          launch.machine.appAddr = ramBase ∧
          launch.ctx.digest =
            blake2sDigest 32 []
              (read launch.machine.ram ramBase.toNat
                launch.machine.appSize.toNat) ∧
          (∀ digest,
            launch.requested.requiredDigest device = some digest →
            launch.ctx.digest = digest) ∧
          ∃ uss,
            UssGiven launch.heard uss ∧
              launch.machine.cdi =
                blake2sDigest 32 device.uds.toList
                  (cdiMessage
                    (domainByte (uss.isSome = true)
                      launch.requested.Seeded)
                    (if launch.requested.Seeded then
                        launch.requested.measuredId
                      else launch.ctx.digest)
                    uss)) ∧
      ∀ requested heard state ctx m incoming later,
        System.fromBoot device chip scrambled info events =
          .looping requested heard state ctx m →
        Refuses device requested ctx incoming state →
        (∀ event, event ∈ later → ¬ event.IsPowerUp) →
        ∀ launch m',
          System.fromBoot device chip scrambled info
              (events ++ .iteration incoming :: later) ≠
            .running launch m' := by
  have sound := sound_fromBoot device chip scrambled info events
  constructor
  · intro launch m isRunning
    rw [isRunning] at sound
    cases sound with
    | running launched runsOn =>
        exact
          ⟨launched.prepared.sized, launched.entry,
            launched.prepared.measured,
            fun digest required => launched.required required,
            launch.ctx.givenUss, launched.prepared.origin.ussGiven,
            launched.cdi_eq⟩
  · intro requested heard state ctx m incoming later isLooping refuses soft
      launch m' isRunning
    rw [isLooping] at sound
    have failed :
        (System.fromBoot device chip scrambled info
          (events ++ .iteration incoming :: later)).Failed := by
      rw [System.fromBoot, System.run_append, ← System.fromBoot, isLooping,
        System.run_cons]
      cases sound with
      | looping invariant =>
          exact
            failed_run device (failed_of_refuses invariant refuses) soft
    rw [isRunning] at failed
    cases failed

end Start

section FromFlash

variable {device : Device} {info : Reset} {slot : Fin 2} {managed : Bool}
  {plan : StartPlan} {m : Machine}

/-- The machine that has loaded an app from a slot according to a plan. -/
def Machine.prepared (slot : Fin 2) (managed : Bool) (m : Machine) :
    Machine :=
  if managed then
    { m.loadedFrom slot with
      currentAppDigest := (m.loadedFrom slot).measured }
  else
    m.loadedFrom slot

/-- The state in which the app of a plan is loaded from flash. -/
theorem iterate_flash
    (present : (m.table.app slot).size ≠ 0)
    (fits : (m.table.app slot).size.toNat ≤ 0x20000)
    {ctx : Context}
    (isSlot : ctx.flashSlot = slotByte slot)
    (incoming : Incoming) :
    (iterate device incoming (StartSource.flash slot managed).state
        ctx).run m =
      .ok
        (.loop .start { ctx with digest := (m.loadedFrom slot).measured })
        (m.prepared slot managed) := by
  have loaded := loadFlashApp_run present fits
  rw [← isSlot] at loaded
  cases managed with
  | false =>
      rw [StartSource.state, iterate, Fw.run_bind_of_ok loaded]
      rfl
  | true =>
      rw [StartSource.state, iterate, Fw.run_bind_of_ok loaded]
      rfl

/-- How an app from a slot is launched. -/
def flashLaunch
    (device : Device)
    (info : Reset)
    (plan : StartPlan)
    (slot : Fin 2)
    (managed : Bool)
    (m : Machine) : Launch :=
  let ctx :=
    { plan.context with digest := (m.loadedFrom slot).measured }
  { requested := info
    heard := []
    ctx := ctx
    machine := (m.prepared slot managed).started device ctx }

/-- The start of an app from flash changes neither flash nor the table. -/
theorem sameStore_flashLaunch :
    (flashLaunch device info plan slot managed m).machine.SameStore m := by
  cases managed <;> exact ⟨rfl, rfl⟩

/-- Three iterations of the main loop start an app from flash. -/
theorem run_flash
    (resetinfo : m.resetinfo = info)
    (isPlan : info.plan = some plan)
    (isFlash : plan.source = .flash slot managed)
    (sized : AppSize (m.table.app slot).size)
    (accepted :
      DigestAccepted device info
        { plan.context with digest := (m.loadedFrom slot).measured })
    (incoming : Fin 3 → Incoming) :
    System.run device (.looping info [] .initial Context.initial m)
        [.iteration (incoming 0), .iteration (incoming 1),
          .iteration (incoming 2)] =
      .running (flashLaunch device info plan slot managed m)
        (flashLaunch device info plan slot managed m).machine := by
  have present : (m.table.app slot).size ≠ 0 := by
    intro zero
    have positive := sized.1
    rw [zero] at positive
    exact absurd positive (by decide)
  have isSlot : plan.context.flashSlot = slotByte slot := by
    rw [StartPlan.context, isFlash]
    rfl
  have first :
      System.step device (.looping info [] .initial Context.initial m)
          (.iteration (incoming 0)) =
        .looping info [] (StartSource.flash slot managed).state plan.context
          m := by
    rw [System.step, iterate,
      Fw.run_bind_of_ok (startWhere_run Context.initial m), resetinfo,
      startDecision_initial, isPlan]
    simp only [isFlash]
    rfl
  have second :
      System.step device
          (.looping info [] (StartSource.flash slot managed).state
            plan.context m)
          (.iteration (incoming 1)) =
        .looping info [] .start
          { plan.context with digest := (m.loadedFrom slot).measured }
          (m.prepared slot managed) := by
    rw [System.step, iterate_flash present sized.2 isSlot]
    cases managed <;> rfl
  have sameInfo : (m.prepared slot managed).resetinfo = info := by
    rw [← resetinfo, Machine.prepared]
    cases managed <;> rfl
  have third :
      System.step device
          (.looping info [] .start
            { plan.context with digest := (m.loadedFrom slot).measured }
            (m.prepared slot managed))
          (.iteration (incoming 2)) =
        .running (flashLaunch device info plan slot managed m)
          (flashLaunch device info plan slot managed m).machine := by
    rw [System.step, iterate, startApp_run, sameInfo, if_pos accepted]
    rfl
  rw [System.run_cons, first, System.run_cons, second, System.run_cons,
    third, System.run_nil]

end FromFlash

section Samples

/-- A device whose management app is a single erased byte. -/
def Device.managed : Device :=
  { Device.sample with
    allowedAppDigest := blake2sDigest 32 [] [0xFF] }

/-- A table with an app of one byte in a slot. -/
def PartitionTable.withApp (slot : Fin 2) : PartitionTable :=
  PartitionTable.sample.setApp slot
    { PartitionTable.sample.app slot with size := 1 }

theorem size_withApp (slot : Fin 2) :
    ((PartitionTable.withApp slot).app slot).size = 1 := by
  rw [PartitionTable.withApp, PartitionTable.app,
    PartitionTable.get_setApp_self]

/-- The slots of a provisioned chip are erased. -/
theorem memory_provisioned_slot
    (table : PartitionTable)
    {slot : Fin 2}
    {index : Nat}
    (inside : index < 0x20000) :
    (FlashChip.provisioned table).memory (appStart slot + index) =
      0xFF := by
  have kept :=
    NorFlash.run_of_avoids
      (@avoids_tableCommands_slot table.sealed slot index inside)
      fun _ => 0xFF
  exact kept

/-- A machine that has booted from a provisioned chip with a reset record. -/
def Machine.booted
    (table : PartitionTable)
    (scrambled : Memory)
    (info : Reset) : Machine :=
  (Machine.entered (.provisioned table) scrambled info).withCopy .first

theorem Machine.flash_booted
    (table : PartitionTable)
    (scrambled : Memory)
    (info : Reset) :
    (Machine.booted table scrambled info).flash = .provisioned table := by
  rw [booted, flash_withCopy, flash_entered]

theorem Machine.table_booted
    (table : PartitionTable)
    (scrambled : Memory)
    (info : Reset) :
    (Machine.booted table scrambled info).table = table := by
  have loaded :
      (Machine.booted table scrambled info).partTableStorage =
        table.sealed :=
    loadCopy_provisioned table .first
  rw [Machine.table, loaded]
  rfl

variable (slot : Fin 2) (scrambled : Memory) (info : Reset)

/-- The sample app is one erased byte. -/
theorem image_withApp :
    ((Machine.booted (.withApp slot) scrambled info).loadedFrom
        slot).image =
      [0xFF] := by
  have byte :=
    @memory_provisioned_slot (.withApp slot) slot 0 (by decide)
  have one : (1 : UInt32).toNat = 1 := rfl
  have single (memory : Memory) (first : Nat) :
      read memory first 1 = [memory (first + 0)] := rfl
  rw [image_loadedFrom, Machine.table_booted, size_withApp, one,
    Machine.flash_booted, single, byte]

/-- The sample app is measured. -/
theorem measured_withApp :
    ((Machine.booted (.withApp slot) scrambled info).loadedFrom
        slot).measured =
      blake2sDigest 32 [] [0xFF] := by
  rw [Machine.measured, image_withApp]

/-- The events of a boot that starts an app from flash. -/
def flashBoot : List Event :=
  [.iteration .failed, .iteration .failed, .iteration .failed]

/-- The launch of the sample management app. -/
def Launch.managed (scrambled : Memory) (info : Reset) : Launch :=
  flashLaunch .managed info
    { source := .flash 0 true, verDigest := some .allowed } 0 true
    (.booted (.withApp 0) scrambled info)

/-- The sample management app is started by a default start. -/
theorem run_managed (isDefault : info.type = startDefault) :
    System.fromBoot .managed (.provisioned (.withApp 0)) scrambled info
        flashBoot =
      .running (.managed scrambled info)
        (Launch.managed scrambled info).machine := by
  have boots :
      System.boot (.provisioned (.withApp 0)) scrambled info =
        .looping info [] .initial Context.initial
          (.booted (.withApp 0) scrambled info) :=
    boot_of_usable (usableCopy_provisioned _) _ _
  have sized :
      AppSize
        ((Machine.booted (.withApp 0) scrambled info).table.app 0).size := by
    rw [Machine.table_booted, size_withApp]
    decide
  have accepted :
      DigestAccepted .managed info
        { StartPlan.context
            { source := .flash 0 true, verDigest := some .allowed } with
          digest :=
            ((Machine.booted (.withApp 0) scrambled info).loadedFrom
              0).measured } := by
    intro digest required
    cases required
    exact measured_withApp 0 scrambled info
  have isPlan :
      info.plan =
        some { source := .flash 0 true, verDigest := some .allowed } :=
    if_pos (.inl isDefault)
  rw [System.fromBoot, boots]
  exact
    run_flash (Machine.resetinfo_withCopy _ _) isPlan rfl sized accepted
      fun _ => .failed

/-- A call that stores a chunk of an app, from the start of app RAM. -/
def storeCall (offset size : UInt32) : Call :=
  { Call.plain .preloadStore with
    arg1 := offset
    arg2 := ramBase
    arg3 := size }

/-- A management app can store a chunk in an empty slot. -/
theorem store_chunk
    {device : Device}
    {m : Machine}
    {offset size : UInt32}
    (mgmt : m.IsMgmt device)
    (empty : (m.table.app 1).size = 0)
    (writable : WritableRange offset ramBase size) :
    (syscallHandler device (storeCall offset size)).run m =
      .ok 0
        (m.perform
          (pages 256 (appStart 1 + offset.toNat)
            (read m.ram ramBase.toNat size.toNat))) := by
  have isCall :
      SyscallNum.ofWord (storeCall offset size).number =
        some .preloadStore := rfl
  have slot : (1 : UInt8) = slotByte 1 := rfl
  rw [syscallHandler, isCall]
  simp only
  rw [slot, preloadStore_run]
  exact if_pos ⟨mgmt, empty, writable⟩

/-- The management app is started and fills app RAM with zeros. -/
def writerStart : List Event :=
  flashBoot ++ [.appWrites fun _ => 0]

/-- The management app is running, on a device without a second app. -/
theorem run_writer :
    ∃ launch writer,
      System.fromBoot .managed (.provisioned (.withApp 0)) (fun _ => 0) .zero
          writerStart =
        .running launch writer ∧
        writer.IsMgmt .managed ∧
        writer.table = .withApp 0 ∧
        writer.ram = (fun _ => 0) ∧
        writer.flash.memory =
          (FlashChip.provisioned (.withApp 0)).memory := by
  have same :
      (Launch.managed (fun _ => 0) .zero).machine.SameStore
        (.booted (.withApp 0) (fun _ => 0) .zero) :=
    sameStore_flashLaunch
  refine
    ⟨.managed (fun _ => 0) .zero,
      { (Launch.managed (fun _ => 0) .zero).machine with ram := fun _ => 0 },
      ?_, measured_withApp 0 (fun _ => 0) .zero,
      same.table.trans (Machine.table_booted _ _ _), rfl, ?_⟩
  · rw [System.fromBoot, writerStart, System.run_append, ← System.fromBoot,
      run_managed (fun _ => 0) .zero rfl]
    rfl
  · exact same.1.trans (congrArg FlashChip.memory (Machine.flash_booted _ _ _))

/-- It then stores a byte in slot 1, and enters nothing in the table. -/
def abandonedStore : List Event :=
  writerStart ++ [.syscall (storeCall 0 1) fun _ => 0]

/-- The management app is running and has stored a zero byte. -/
theorem run_abandonedStore :
    ∃ launch start,
      System.fromBoot .managed (.provisioned (.withApp 0)) (fun _ => 0)
          .zero abandonedStore =
        .running launch start ∧
        (start.table.app 1).size = 0 ∧
        start.flash.memory (appStart 1) = 0 := by
  obtain ⟨launch, writer, boots, mgmt, table, ram, _⟩ := run_writer
  have empty : (writer.table.app 1).size = 0 := by
    rw [table]
    rfl
  have stored :=
    @store_chunk .managed writer 0 1 mgmt empty (by decide)
  rw [ram] at stored
  refine
    ⟨launch, writer.perform (pages 256 (appStart 1) [0]), ?_, empty, ?_⟩
  · rw [System.fromBoot, abandonedStore, System.run_append,
      ← System.fromBoot, boots, System.run_cons, System.step, stored]
    rfl
  · have inside : 0 < [(0 : UInt8)].length := by decide
    have cell :=
      runCell_pages (show 0 < 256 by decide) (appStart 1) [0] (appStart 1 + 0)
        (writer.flash.memory (appStart 1))
    rw [cell_program_inside inside] at cell
    rw [(FlashChip.After.perform _ _).1]
    exact cell.trans UInt8.and_zero

end Samples

end TKey
