import TKey.Proto

namespace TKey

open ByteMemory

/-!
# The firmware main loop

`main.c` and the part of `start.S` that runs before it: from a reset until an
app is started.  The random delay before the UDS is read, the debug output and
the LED are left out.
-/

section Definitions

/-- `enum state`. -/
inductive FwState where
  | initial
  | waitcommand
  | loading
  | loadFlash
  | loadFlashMgmt
  | start
  | fail
  deriving Repr, DecidableEq

/-- What `ver_digest` points at. -/
inductive VerDigest where
  /-- The digest returned by `mgmt_app_allowed_digest`. -/
  | allowed
  /-- The field `app_digest` of the reset record. -/
  | resetinfo
  deriving Repr, DecidableEq

/-- Context for the loading of a TKey program. -/
structure Context where
  left : UInt32
  digest : Vector UInt8 32
  loadaddr : UInt32
  useUss : Bool
  uss : Vector UInt8 32
  flashSlot : UInt8
  /-- The pointer `ver_digest`; `none` is `NULL`. -/
  verDigest : Option VerDigest
  deriving DecidableEq

/-- The context with which `main` starts. -/
def Context.initial : Context where
  left := 0
  digest := Vector.replicate 32 0
  loadaddr := ramBase
  useUss := false
  uss := Vector.replicate 32 0
  flashSlot := 0
  verDigest := none

/-- `DOMAIN_USS_MASK`. -/
def domainUssMask : UInt8 := 0x1

/-- `DOMAIN_MEASURED_ID_MASK`. -/
def domainMeasuredIdMask : UInt8 := 0x2

/-- CDI = blake2s(uds, domain + digest + uss). -/
def computeCdi
    (device : Device)
    (domain : UInt8)
    (digest : Vector UInt8 32)
    (useUss : Bool)
    (uss : Vector UInt8 32) : Fw Unit :=
  match blake2sInit 32 device.uds.toList with
  | none => throw .halt
  | some secureCtx =>
      let secureCtx := blake2sUpdate secureCtx [domain]
      let secureCtx := blake2sUpdate secureCtx digest.toList
      let secureCtx :=
        if useUss then blake2sUpdate secureCtx uss.toList else secureCtx
      modify fun m =>
        { m with cdi := toVector 32 (blake2sFinal secureCtx) }

/-- The bytes of a name word, most significant first. -/
def copyName (word : UInt32) : List UInt8 :=
  [(word >>> 24).toUInt8, (word >>> 16).toUInt8, (word >>> 8).toUInt8,
    word.toUInt8]

/-- Compute the digest of the app loaded into RAM. -/
def computeAppDigest : Fw (Option (Vector UInt8 32)) := do
  let m ← get
  let bytes ← loadBytes ramBase m.appSize.toNat
  return (blake2s 32 [] bytes).map (toVector 32)

/-- The app size that a `LOAD_APP` command announces. -/
def requestedSize (cmd : Vector UInt8 128) : UInt32 :=
  cmd[1].toUInt32 + (cmd[2].toUInt32 <<< 8) +
    (cmd[3].toUInt32 <<< 16) + (cmd[4].toUInt32 <<< 24)

/-- The context after a `LOAD_APP` command, apart from `left`. -/
def contextWithUss (cmd : Vector UInt8 128) (ctx : Context) : Context :=
  if cmd[5] ≠ 0 then
    { ctx with
      useUss := true
      uss := toVector 32 (cmd.toList.drop 6) }
  else
    { ctx with useUss := false }

def initialCommands
    (device : Device)
    (hdr : FrameHeader)
    (cmd : Vector UInt8 128)
    (state : FwState)
    (ctx : Context) : Fw (FwState × Context) :=
  if cmd[0] = fwCmdNameVersion then
    if hdr.len ≠ 1 then
      return (.fail, ctx)
    else do
      fwreply hdr fwRspNameVersion
        (toVector 128
          (copyName device.name0 ++ copyName device.name1 ++
            (PackedLayout.word device.version).toList))
      return (state, ctx)
  else if cmd[0] = fwCmdGetUdi then
    if hdr.len ≠ 1 then
      return (.fail, ctx)
    else do
      fwreply hdr fwRspGetUdi
        (toVector 128
          (statusOk ::
            (PackedLayout.word device.vidpid).toList ++
            (PackedLayout.word device.udi[1]).toList))
      return (state, ctx)
  else if cmd[0] = fwCmdLoadApp then
    if hdr.len ≠ 128 then
      return (.fail, ctx)
    else
      let localAppSize := requestedSize cmd
      if localAppSize = 0 ∨ localAppSize > appMaxSize then do
        fwreply hdr fwRspLoadApp (toVector 128 [statusBad])
        return (state, ctx)
      else do
        modify fun m => { m with appSize := localAppSize }
        let ctx := contextWithUss cmd ctx
        fwreply hdr fwRspLoadApp (toVector 128 [statusOk])
        let m ← get
        Fw.assert (m.appSize ≠ 0)
        Fw.assert (m.appSize ≤ appMaxSize)
        return (.loading, { ctx with left := m.appSize })
  else
    return (.fail, ctx)

/-- The number of bytes of the app in a `LOAD_APP_DATA` command. -/
def chunkLength (left : UInt32) : UInt32 :=
  if left > 127 then 127 else left

def loadingCommands
    (hdr : FrameHeader)
    (cmd : Vector UInt8 128)
    (state : FwState)
    (ctx : Context) : Fw (FwState × Context) :=
  if cmd[0] = fwCmdLoadAppData then
    if hdr.len ≠ 128 then
      return (.fail, ctx)
    else do
      let nbytes := chunkLength ctx.left
      storeBytes ctx.loadaddr ((cmd.toList.drop 1).take nbytes.toNat)
      let ctx :=
        { ctx with
          loadaddr := ctx.loadaddr + nbytes
          left := ctx.left - nbytes }
      if ctx.left = 0 then do
        let result ← computeAppDigest
        Fw.assert (result.isSome = true)
        let ctx := { ctx with digest := result.getD ctx.digest }
        fwreply hdr fwRspLoadAppDataReady
          (toVector 128 (statusOk :: ctx.digest.toList))
        return (.start, ctx)
      else do
        fwreply hdr fwRspLoadAppData (toVector 128 [statusOk])
        return (state, ctx)
  else
    return (.fail, ctx)

/-- Load an app from flash; `none` stands for `-1`. -/
def loadFlashApp (slot : UInt8) : Fw (Option (Vector UInt8 32)) :=
  if bound : slot.toNat < nPreloadedApp then do
    let loaded ← preloadLoad slot
    if loaded = -1 then
      return none
    else do
      modify fun m =>
        { m with
          appSize :=
            (m.partTableStorage.table.preAppData.get ⟨_, bound⟩).size }
      let m ← get
      if m.appSize > appMaxSize then
        return none
      else do
        let result ← computeAppDigest
        Fw.assert (result.isSome = true)
        return result
  else
    return none

/-- Where do we start? -/
def startWhere (ctx : Context) : Fw (FwState × Context) := do
  let m ← get
  if m.resetinfo.type = startDefault ∨ m.resetinfo.type = startFlash0 then
    return (.loadFlashMgmt,
      { ctx with flashSlot := 0, verDigest := some .allowed })
  else if m.resetinfo.type = startFlash1 then
    return (.loadFlash, { ctx with flashSlot := 1, verDigest := none })
  else if m.resetinfo.type = startFlash0Ver then
    return (.loadFlash,
      { ctx with flashSlot := 0, verDigest := some .resetinfo })
  else if m.resetinfo.type = startFlash1Ver then
    return (.loadFlash,
      { ctx with flashSlot := 1, verDigest := some .resetinfo })
  else if m.resetinfo.type = startClient then
    return (.waitcommand, { ctx with verDigest := none })
  else if m.resetinfo.type = startClientVer then
    return (.waitcommand, { ctx with verDigest := some .resetinfo })
  else
    return (.fail, ctx)

/-- The bytes that `ver_digest` points at. -/
def VerDigest.value
    (device : Device)
    (m : Machine) : VerDigest → Vector UInt8 32
  | .allowed => mgmtAppAllowedDigest device
  | .resetinfo => m.resetinfo.appDigest

def jumpToApp : Fw Unit :=
  modify fun m => { m with appAddr := ramBase }

/-- How an iteration of the main loop ends. -/
inductive Next where
  | loop (state : FwState) (ctx : Context)
  | jump (ctx : Context)
  deriving DecidableEq

/-- The first part of the state `FW_STATE_START`, which sets the CDI. -/
def startComputeCdi (device : Device) (ctx : Context) : Fw Unit := do
  let m ← get
  let domain := if ctx.useUss then domainUssMask else 0
  if m.resetinfo.mask &&& resetSeed ≠ 0 then
    computeCdi device (domain ||| domainMeasuredIdMask)
      m.resetinfo.measuredId ctx.useUss ctx.uss
  else
    computeCdi device domain ctx.digest ctx.useUss ctx.uss

/-- The last part of the state `FW_STATE_START`, which checks the digest. -/
def startCheckDigest (device : Device) (ctx : Context) : Fw Next := do
  let m ← get
  if ctx.verDigest.any fun ver => ctx.digest ≠ ver.value device m then
    return .loop .fail ctx
  else do
    modifyResetinfo fun info =>
      { info with appDigest := Vector.replicate 32 0 }
    jumpToApp
    return .jump ctx

/-- The state `FW_STATE_START`. -/
def startApp (device : Device) (ctx : Context) : Fw Next := do
  startComputeCdi device ctx
  modifyResetinfo fun info =>
    { info with
      type := startDefault
      mask := info.mask &&& ~~~resetSeed
      measuredId := Vector.replicate 32 0 }
  startCheckDigest device ctx

/-- One iteration of the main loop; `incoming` is for `readcommand`. -/
def iterate
    (device : Device)
    (incoming : Incoming)
    (state : FwState)
    (ctx : Context) : Fw Next :=
  match state with
  | .initial => do
      let next ← startWhere ctx
      return .loop next.1 next.2
  | .waitcommand =>
      match readcommand incoming with
      | none => return .loop .fail ctx
      | some (hdr, cmd) => do
          let next ← initialCommands device hdr cmd state ctx
          return .loop next.1 next.2
  | .loading =>
      match readcommand incoming with
      | none => return .loop .fail ctx
      | some (hdr, cmd) => do
          let next ← loadingCommands hdr cmd state ctx
          return .loop next.1 next.2
  | .loadFlash => do
      let result ← loadFlashApp ctx.flashSlot
      match result with
      | none => return .loop .fail ctx
      | some digest => return .loop .start { ctx with digest := digest }
  | .loadFlashMgmt => do
      let result ← loadFlashApp ctx.flashSlot
      match result with
      | none => return .loop .fail ctx
      | some digest => do
          let status ← mgmtAppInit digest
          if status ≠ 0 then
            return .loop .fail { ctx with digest := digest }
          else
            return .loop .start { ctx with digest := digest }
  | .start => startApp device ctx
  | .fail => throw .halt

/--
The machine when `main` is entered after a reset: `start.S` has cleared
`FW_RAM` except for the reset record, the core has reset its registers, and
app RAM holds what scrambling leaves there.
-/
def Machine.entered
    (chip : FlashChip)
    (ram : Memory)
    (info : Reset) : Machine where
  flash := chip
  ram := ram
  partTableStorage :=
    PartitionTableStorage.layout.symm (Vector.replicate _ 0)
  partStatus := 0
  currentAppDigest := Vector.replicate 32 0
  resetinfo := info
  cdi := Vector.replicate 32 0
  appSize := 0
  appAddr := 0
  replies := []

/-- The part of `main` before the loop. -/
def mainSetup : Fw Unit := do
  let result ← partTableRead
  Fw.assert (result = 0)

end Definitions

section Commands

/-- A command that the waiting firmware answers without a change of state. -/
def IsQuery (hdr : FrameHeader) (cmd : Vector UInt8 128) : Prop :=
  (cmd[0] = fwCmdNameVersion ∧ hdr.len = 1) ∨
    (cmd[0] = fwCmdGetUdi ∧ hdr.len = 1)

/-- A `LOAD_APP` command with the right length. -/
def IsLoadApp (hdr : FrameHeader) (cmd : Vector UInt8 128) : Prop :=
  cmd[0] = fwCmdLoadApp ∧ hdr.len = 128

/-- A `LOAD_APP_DATA` command with the right length. -/
def IsLoadAppData (hdr : FrameHeader) (cmd : Vector UInt8 128) : Prop :=
  cmd[0] = fwCmdLoadAppData ∧ hdr.len = 128

/-- The USS that a `LOAD_APP` command brings along, if any. -/
def announcedUss (cmd : Vector UInt8 128) : Option (Vector UInt8 32) :=
  if cmd[5] ≠ 0 then some (toVector 32 (cmd.toList.drop 6)) else none

end Commands

section Results

/-- The bytes of the app that app RAM holds. -/
def Machine.image (m : Machine) : List UInt8 :=
  read m.ram ramBase.toNat m.appSize.toNat

/-- The digest of the app that app RAM holds. -/
def Machine.measured (m : Machine) : Vector UInt8 32 :=
  blake2sDigest 32 [] m.image

/-- The bytes that the CDI is the keyed hash of. -/
def cdiMessage
    (domain : UInt8)
    (identity : Vector UInt8 32)
    (uss : Option (Vector UInt8 32)) : List UInt8 :=
  [domain] ++ identity.toList ++ (uss.map Vector.toList).getD []

/-- The USS of a context, if there is one. -/
def Context.givenUss (ctx : Context) : Option (Vector UInt8 32) :=
  if ctx.useUss then some ctx.uss else none

theorem computeCdi_run
    (device : Device)
    (domain : UInt8)
    (digest : Vector UInt8 32)
    (ctx : Context)
    (m : Machine) :
    (computeCdi device domain digest ctx.useUss ctx.uss).run m =
      .ok ()
        { m with
          cdi :=
            blake2sDigest 32 device.uds.toList
              (cdiMessage domain digest ctx.givenUss) } := by
  obtain ⟨secureCtx, initialized⟩ :
      ∃ secureCtx, blake2sInit 32 device.uds.toList = some secureCtx := by
    simp [blake2sInit]
  rw [computeCdi, initialized]
  have digest (uss : List UInt8) :
      blake2sDigest 32 device.uds.toList
          ([domain] ++ digest.toList ++ uss) =
        toVector 32
          (blake2sFinal
            (blake2sUpdate
              (blake2sUpdate (blake2sUpdate secureCtx [domain])
                digest.toList) uss)) := by
    simp only [blake2sDigest, blake2s, initialized, Option.map_some,
      Option.getD_some, blake2sUpdate_append]
  rw [cdiMessage, digest, Context.givenUss]
  cases ctx.useUss <;> rfl

/-- The digest of an app of at most 128 KiB is computed. -/
theorem computeAppDigest_run
    {m : Machine}
    (fits : m.appSize.toNat ≤ 0x20000) :
    computeAppDigest.run m = .ok (some m.measured) m := by
  have inRam : InRam ramBase m.appSize.toNat := by
    have base : ramBase.toNat = 0x40000000 := rfl
    have length : ramSize.toNat = 0x20000 := rfl
    simp only [InRam, base, length]
    omega
  have hashed :
      (blake2s 32 [] m.image).map (toVector 32) = some m.measured := by
    simp [Machine.measured, blake2s_eq_some]
  rw [computeAppDigest, Fw.run_get_bind,
    Fw.run_bind_of_ok (loadBytes_run inRam m), ← Machine.image, hashed]
  rfl

/-- What `start_where` decides on a reset record. -/
def startDecision (info : Reset) (ctx : Context) : FwState × Context :=
  if info.type = startDefault ∨ info.type = startFlash0 then
    (.loadFlashMgmt,
      { ctx with flashSlot := 0, verDigest := some .allowed })
  else if info.type = startFlash1 then
    (.loadFlash, { ctx with flashSlot := 1, verDigest := none })
  else if info.type = startFlash0Ver then
    (.loadFlash,
      { ctx with flashSlot := 0, verDigest := some .resetinfo })
  else if info.type = startFlash1Ver then
    (.loadFlash,
      { ctx with flashSlot := 1, verDigest := some .resetinfo })
  else if info.type = startClient then
    (.waitcommand, { ctx with verDigest := none })
  else if info.type = startClientVer then
    (.waitcommand, { ctx with verDigest := some .resetinfo })
  else
    (.fail, ctx)

theorem startWhere_run (ctx : Context) (m : Machine) :
    (startWhere ctx).run m = .ok (startDecision m.resetinfo ctx) m := by
  rw [startWhere, Fw.run_get_bind, startDecision]
  split_ifs <;> rfl

/-- The machine after an app was copied from a slot to app RAM. -/
def Machine.loadedFrom (slot : Fin 2) (m : Machine) : Machine :=
  { m with
    ram :=
      write m.ram ramBase.toNat
        (read m.flash.memory (appStart slot)
          (m.table.app slot).size.toNat)
    appSize := (m.table.app slot).size }

/-- An empty slot is not loaded. -/
theorem loadFlashApp_run_empty
    {slot : Fin 2}
    {m : Machine}
    (empty : (m.table.app slot).size = 0) :
    (loadFlashApp (slotByte slot)).run m = .ok none m := by
  rw [loadFlashApp, dif_pos (slotByte_bound slot),
    Fw.run_bind_of_ok (preloadLoad_run_empty empty), if_pos rfl]
  rfl

/-- An app that does not fit into app RAM is not loaded. -/
theorem loadFlashApp_run_large
    {slot : Fin 2}
    {m : Machine}
    (large : 0x20000 < (m.table.app slot).size.toNat) :
    (loadFlashApp (slotByte slot)).run m = .error .fault m := by
  rw [loadFlashApp, dif_pos (slotByte_bound slot),
    Fw.run_bind_of_error (preloadLoad_run_large large)]

/-- An app that fits is loaded and measured. -/
theorem loadFlashApp_run
    {slot : Fin 2}
    {m : Machine}
    (present : (m.table.app slot).size ≠ 0)
    (fits : (m.table.app slot).size.toNat ≤ 0x20000) :
    (loadFlashApp (slotByte slot)).run m =
      .ok (some (m.loadedFrom slot).measured) (m.loadedFrom slot) := by
  have small : ¬ (m.loadedFrom slot).appSize > appMaxSize := by
    have limit : appMaxSize.toNat = 0x20000 := rfl
    rw [gt_iff_lt, UInt32.lt_iff_toNat_lt, limit]
    exact Nat.not_lt.mpr fits
  have loaded :
      (loadFlashApp (slotByte slot)).run m =
        (if (m.loadedFrom slot).appSize > appMaxSize then
            pure none
          else do
            let result ← computeAppDigest
            Fw.assert (result.isSome = true)
            return result : Fw (Option (Vector UInt8 32))).run
          (m.loadedFrom slot) := by
    rw [loadFlashApp, dif_pos (slotByte_bound slot),
      Fw.run_bind_of_ok (preloadLoad_run present fits),
      if_neg (by simp), Fw.run_modify_bind, slotByte_index]
    rfl
  rw [loaded, if_neg small]
  exact Fw.run_bind_of_ok (computeAppDigest_run fits) _

/-- The mask of a record asks for the measured id. -/
def Reset.Seeded (info : Reset) : Prop :=
  info.mask &&& resetSeed ≠ 0

instance (info : Reset) : Decidable info.Seeded :=
  inferInstanceAs (Decidable (_ ≠ _))

/-- The domain byte with which an app is started. -/
def startDomain (info : Reset) (ctx : Context) : UInt8 :=
  (if ctx.useUss then domainUssMask else 0) |||
    (if info.Seeded then domainMeasuredIdMask else 0)

/-- The identity that goes into the CDI of the started app. -/
def startIdentity (info : Reset) (ctx : Context) : Vector UInt8 32 :=
  if info.Seeded then info.measuredId else ctx.digest

/-- The CDI of the started app. -/
def startCdi
    (device : Device)
    (info : Reset)
    (ctx : Context) : Vector UInt8 32 :=
  blake2sDigest 32 device.uds.toList
    (cdiMessage (startDomain info ctx) (startIdentity info ctx)
      ctx.givenUss)

/-- The digest that the app must have, if one is required. -/
def requiredDigest
    (device : Device)
    (info : Reset)
    (ctx : Context) : Option (Vector UInt8 32) :=
  ctx.verDigest.map fun ver =>
    match ver with
    | .allowed => device.allowedAppDigest
    | .resetinfo => info.appDigest

/-- The loaded app has the required digest. -/
def DigestAccepted
    (device : Device)
    (info : Reset)
    (ctx : Context) : Prop :=
  ∀ digest, requiredDigest device info ctx = some digest →
    ctx.digest = digest

instance (device : Device) (info : Reset) (ctx : Context) :
    Decidable (DigestAccepted device info ctx) :=
  match required : requiredDigest device info ctx with
  | none =>
      .isTrue fun digest found => by
        simp [required] at found
  | some expected =>
      if same : ctx.digest = expected then
        .isTrue fun digest found => by
          rw [required] at found
          cases found
          exact same
      else
        .isFalse fun accepted => same (accepted expected required)

/-- The record after a start was attempted. -/
def Reset.attempted (info : Reset) : Reset :=
  { info with
    type := startDefault
    mask := info.mask &&& ~~~resetSeed
    measuredId := Vector.replicate 32 0 }

/-- The record after an app was started. -/
def Reset.consumed (info : Reset) : Reset :=
  { info.attempted with appDigest := Vector.replicate 32 0 }

/-- The machine when the firmware jumps to the app. -/
def Machine.started
    (device : Device)
    (ctx : Context)
    (m : Machine) : Machine :=
  { m with
    cdi := startCdi device m.resetinfo ctx
    resetinfo := m.resetinfo.consumed
    appAddr := ramBase }

/-- The machine when the digests do not match. -/
def Machine.rejected
    (device : Device)
    (ctx : Context)
    (m : Machine) : Machine :=
  { m with
    cdi := startCdi device m.resetinfo ctx
    resetinfo := m.resetinfo.attempted }

private theorem startComputeCdi_run
    (device : Device)
    (ctx : Context)
    (m : Machine) :
    (startComputeCdi device ctx).run m =
      .ok () { m with cdi := startCdi device m.resetinfo ctx } := by
  have unfolded :
      (startComputeCdi device ctx).run m =
        (if m.resetinfo.Seeded then
            computeCdi device
              ((if ctx.useUss then domainUssMask else 0) |||
                domainMeasuredIdMask)
              m.resetinfo.measuredId ctx.useUss ctx.uss
          else
            computeCdi device (if ctx.useUss then domainUssMask else 0)
              ctx.digest ctx.useUss ctx.uss).run m :=
    rfl
  rw [unfolded, startCdi, startDomain, startIdentity]
  by_cases seeded : m.resetinfo.Seeded
  · rw [if_pos seeded, if_pos seeded, if_pos seeded, computeCdi_run]
  · rw [if_neg seeded, if_neg seeded, if_neg seeded, computeCdi_run,
      UInt8.or_zero]

/-- The start state sets the CDI, consumes the record and checks the digest. -/
theorem startApp_run (device : Device) (ctx : Context) (m : Machine) :
    (startApp device ctx).run m =
      if DigestAccepted device m.resetinfo ctx then
        .ok (.jump ctx) (m.started device ctx)
      else
        .ok (.loop .fail ctx) (m.rejected device ctx) := by
  have mismatch :
      (ctx.verDigest.any fun ver =>
          ctx.digest ≠
            ver.value device (m.rejected device ctx)) = true ↔
        ¬ DigestAccepted device m.resetinfo ctx := by
    cases chosen : ctx.verDigest with
    | none =>
        simp [DigestAccepted, requiredDigest, chosen]
    | some ver =>
        cases ver <;>
          (simp [DigestAccepted, requiredDigest, chosen,
            VerDigest.value, mgmtAppAllowedDigest, Machine.rejected,
            Reset.attempted]
           exact decide_eq_true_iff)
  have prepared :
      (startApp device ctx).run m =
        (startCheckDigest device ctx).run (m.rejected device ctx) := by
    rw [startApp, Fw.run_bind_of_ok (startComputeCdi_run device ctx m),
      modifyResetinfo, Fw.run_modify_bind]
    rfl
  rw [prepared, startCheckDigest, Fw.run_get_bind]
  by_cases accepted : DigestAccepted device m.resetinfo ctx
  · rw [if_pos accepted, if_neg (mismatch.not_left.mpr accepted)]
    rfl
  · rw [if_neg accepted, if_pos (mismatch.mpr accepted)]
    rfl

end Results

end TKey
