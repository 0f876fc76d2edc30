import TKey.FlashRegions

namespace TKey

open ByteMemory

/-!
# The invariant of a boot

From a boot until it jumps to an app, the main loop follows the plan that the
reset record selects: an app from one of the slots, or one from the client.
The invariant says in each state what of the app is already in app RAM, and
with that what is known of an app while it is running.
-/

section Plans

/-- Where the app that is to be started comes from. -/
inductive StartSource where
  /-- From a slot; a prospective management app has its digest remembered. -/
  | flash (slot : Fin 2) (managed : Bool)
  | client
  deriving DecidableEq

/-- What a reset record asks for. -/
structure StartPlan where
  source : StartSource
  verDigest : Option VerDigest
  deriving DecidableEq

/-- The plan for a start type, if it is known. -/
def Reset.plan (info : Reset) : Option StartPlan :=
  if info.type = startDefault ∨ info.type = startFlash0 then
    some { source := .flash 0 true, verDigest := some .allowed }
  else if info.type = startFlash1 then
    some { source := .flash 1 false, verDigest := none }
  else if info.type = startFlash0Ver then
    some { source := .flash 0 false, verDigest := some .resetinfo }
  else if info.type = startFlash1Ver then
    some { source := .flash 1 false, verDigest := some .resetinfo }
  else if info.type = startClient then
    some { source := .client, verDigest := none }
  else if info.type = startClientVer then
    some { source := .client, verDigest := some .resetinfo }
  else
    none

/-- The state in which the loop goes on with a plan. -/
def StartSource.state : StartSource → FwState
  | .flash _ true => .loadFlashMgmt
  | .flash _ false => .loadFlash
  | .client => .waitcommand

/-- The slot number that the context holds for a source. -/
def StartSource.slotNumber : StartSource → UInt8
  | .flash slot _ => slotByte slot
  | .client => 0

/-- The context with which a plan is carried out. -/
def StartPlan.context (plan : StartPlan) : Context :=
  { Context.initial with
    flashSlot := plan.source.slotNumber
    verDigest := plan.verDigest }

/-- The loop starts to carry out the plan, or fails when there is none. -/
theorem startDecision_initial (info : Reset) :
    startDecision info Context.initial =
      match info.plan with
      | some plan => (plan.source.state, plan.context)
      | none => (.fail, Context.initial) := by
  unfold startDecision Reset.plan
  split_ifs <;> rfl

end Plans

section Transfers

/-- A frame that the waiting firmware answers without a change of state. -/
def Incoming.IsHarmless (incoming : Incoming) : Prop :=
  ∃ hdr cmd,
    readcommand incoming = some (hdr, cmd) ∧
      (IsQuery hdr cmd ∨
        (IsLoadApp hdr cmd ∧ ¬ AppSize (requestedSize cmd)))

/-- A frame that announces an app of an acceptable size. -/
def Incoming.Announces
    (incoming : Incoming)
    (cmd : Vector UInt8 128) : Prop :=
  ∃ hdr,
    readcommand incoming = some (hdr, cmd) ∧
      IsLoadApp hdr cmd ∧
      AppSize (requestedSize cmd)

/-- A frame that carries a block of 127 bytes of the app. -/
def Incoming.Carries (incoming : Incoming) (block : List UInt8) : Prop :=
  ∃ hdr cmd,
    readcommand incoming = some (hdr, cmd) ∧
      IsLoadAppData hdr cmd ∧
      block = cmd.toList.drop 1

/-- The frames of a client that has announced an app and sent some blocks. -/
inductive Transfer (cmd : Vector UInt8 128) :
    List Incoming → List (List UInt8) → Prop where
  | announced {earlier : List Incoming}
      (incoming : Incoming)
      (harmless : ∀ other, other ∈ earlier → other.IsHarmless)
      (announces : incoming.Announces cmd) :
      Transfer cmd (earlier ++ [incoming]) []
  | block {heard : List Incoming} {blocks : List (List UInt8)}
      (incoming : Incoming)
      (earlier : Transfer cmd heard blocks)
      (block : List UInt8)
      (carries : incoming.Carries block) :
      Transfer cmd (heard ++ [incoming]) (blocks ++ [block])

end Transfers

section Invariant

/-- Nothing of an earlier app is left before one is loaded. -/
structure Fresh (requested : Reset) (m : Machine) : Prop where
  resetinfo : m.resetinfo = requested
  currentAppDigest : m.currentAppDigest = Vector.replicate 32 0

/-- The loader has stored the blocks that it has heard. -/
structure Loading
    (plan : StartPlan)
    (cmd : Vector UInt8 128)
    (blocks : List (List UInt8))
    (ctx : Context)
    (m : Machine) : Prop where
  size : m.appSize = requestedSize cmd
  sized : AppSize (requestedSize cmd)
  context :
    ctx =
      { contextWithUss cmd plan.context with
        left := ctx.left
        loadaddr := ctx.loadaddr }
  more : 0 < ctx.left.toNat
  balance :
    blocks.flatten.length + ctx.left.toNat = m.appSize.toNat
  address : ctx.loadaddr.toNat = ramBase.toNat + blocks.flatten.length
  stored :
    read m.ram ramBase.toNat blocks.flatten.length = blocks.flatten

/-- How the app in app RAM came there. -/
inductive Origin
    (requested : Reset)
    (heard : List Incoming)
    (ctx : Context)
    (m : Machine) : Prop where
  /-- The app was copied from a slot; its digest is known if it may manage. -/
  | flash (slot : Fin 2) (managed : Bool) (verDigest : Option VerDigest)
      (isPlan :
        requested.plan =
          some { source := .flash slot managed, verDigest := verDigest })
      (silent : heard = [])
      (image :
        m.image =
          read m.flash.memory (appStart slot)
            (m.table.app slot).size.toNat)
      (remembered :
        m.currentAppDigest =
          if managed then ctx.digest else Vector.replicate 32 0)
      (verified : ctx.verDigest = verDigest)
      (noUss : ctx.givenUss = none)
  /-- The client has announced an app and sent it in blocks. -/
  | client (cmd : Vector UInt8 128) (blocks : List (List UInt8))
      (verDigest : Option VerDigest)
      (isPlan :
        requested.plan =
          some { source := .client, verDigest := verDigest })
      (transfer : Transfer cmd heard blocks)
      (size : m.appSize = requestedSize cmd)
      (image : m.image = blocks.flatten.take (requestedSize cmd).toNat)
      (forgotten : m.currentAppDigest = Vector.replicate 32 0)
      (verified : ctx.verDigest = verDigest)
      (uss : ctx.givenUss = announcedUss cmd)

/-- An app is in app RAM and measured. -/
structure Prepared
    (requested : Reset)
    (heard : List Incoming)
    (ctx : Context)
    (m : Machine) : Prop where
  sized : AppSize m.appSize
  measured : ctx.digest = m.measured
  origin : Origin requested heard ctx m

/-- What holds in each state of the main loop. -/
inductive LoopInvariant (requested : Reset) :
    List Incoming → FwState → Context → Machine → Prop where
  | initial {m : Machine} (fresh : Fresh requested m) :
      LoopInvariant requested [] .initial Context.initial m
  | waiting {heard : List Incoming} {m : Machine} (plan : StartPlan)
      (fresh : Fresh requested m)
      (isPlan : requested.plan = some plan)
      (isClient : plan.source = .client)
      (harmless : ∀ incoming, incoming ∈ heard → incoming.IsHarmless) :
      LoopInvariant requested heard .waitcommand plan.context m
  | loading {heard : List Incoming} {ctx : Context} {m : Machine}
      (plan : StartPlan)
      (cmd : Vector UInt8 128)
      (blocks : List (List UInt8))
      (fresh : Fresh requested m)
      (isPlan : requested.plan = some plan)
      (isClient : plan.source = .client)
      (transfer : Transfer cmd heard blocks)
      (loading : Loading plan cmd blocks ctx m) :
      LoopInvariant requested heard .loading ctx m
  | loadFlash {m : Machine} (slot : Fin 2) (plan : StartPlan)
      (fresh : Fresh requested m)
      (isPlan : requested.plan = some plan)
      (isFlash : plan.source = .flash slot false) :
      LoopInvariant requested [] .loadFlash plan.context m
  | loadFlashMgmt {m : Machine} (slot : Fin 2) (plan : StartPlan)
      (fresh : Fresh requested m)
      (isPlan : requested.plan = some plan)
      (isFlash : plan.source = .flash slot true) :
      LoopInvariant requested [] .loadFlashMgmt plan.context m
  | start {heard : List Incoming} {ctx : Context} {m : Machine}
      (resetinfo : m.resetinfo = requested)
      (prepared : Prepared requested heard ctx m) :
      LoopInvariant requested heard .start ctx m
  | fail {heard : List Incoming} {ctx : Context} {m : Machine} :
      LoopInvariant requested heard .fail ctx m

end Invariant

section Steps

/-- What is known of an app when the firmware jumps to it. -/
structure Launched (device : Device) (launch : Launch) : Prop where
  prepared :
    Prepared launch.requested launch.heard launch.ctx launch.machine
  accepted : DigestAccepted device launch.requested launch.ctx
  cdi :
    launch.machine.cdi = startCdi device launch.requested launch.ctx
  resetinfo : launch.machine.resetinfo = launch.requested.consumed
  entry : launch.machine.appAddr = ramBase

/-- What an iteration leaves, as far as the loop goes on or ends in a jump. -/
def AfterIteration
    (device : Device)
    (requested : Reset)
    (heard : List Incoming) :
    EStateM.Result Stop Machine Next → Prop
  | .ok (.loop state ctx) m => LoopInvariant requested heard state ctx m
  | .ok (.jump ctx) m =>
      Launched device
        { requested := requested
          heard := heard
          ctx := ctx
          machine := m }
  | .error _ _ => True

variable {device : Device} {requested : Reset}

/-- The first iteration turns to the plan of the reset record. -/
theorem invariant_decided
    {m : Machine}
    (fresh : Fresh requested m) :
    LoopInvariant requested []
      (startDecision m.resetinfo Context.initial).1
      (startDecision m.resetinfo Context.initial).2 m := by
  rw [startDecision_initial, fresh.resetinfo]
  cases isPlan : requested.plan with
  | none =>
      exact .fail
  | some plan =>
      cases source : plan.source with
      | client =>
          simp only [source, StartSource.state]
          exact .waiting plan fresh isPlan source fun _ member => by
            cases member
      | flash slot managed =>
          cases managed with
          | false =>
              simp only [source, StartSource.state]
              exact .loadFlash slot plan fresh isPlan source
          | true =>
              simp only [source, StartSource.state]
              exact .loadFlashMgmt slot plan fresh isPlan source

/-- Replies to the client are no part of what the invariant is about. -/
theorem Fresh.replying
    {m : Machine}
    (fresh : Fresh requested m)
    (replies : List (List UInt8)) :
    Fresh requested (m.replying replies) :=
  ⟨fresh.resetinfo, fresh.currentAppDigest⟩

/-- Neither is the size of the app. -/
theorem Fresh.announced
    {m : Machine}
    (fresh : Fresh requested m)
    (cmd : Vector UInt8 128) :
    Fresh requested (m.announced cmd) := by
  unfold Machine.announced
  exact ⟨fresh.resetinfo, fresh.currentAppDigest⟩

/-- Neither is app RAM. -/
theorem Fresh.received
    {m : Machine}
    (fresh : Fresh requested m)
    (data : Vector UInt8 128)
    (ctx : Context) :
    Fresh requested (m.received data ctx) := by
  unfold Machine.received
  exact ⟨fresh.resetinfo, fresh.currentAppDigest⟩

theorem left_announced (cmd : Vector UInt8 128) (ctx : Context) :
    (ctx.announced cmd).left = requestedSize cmd := by
  simp only [Context.announced]

theorem appSize_announced
    (cmd : Vector UInt8 128)
    (replies : List (List UInt8))
    (m : Machine) :
    ((m.announced cmd).replying replies).appSize = requestedSize cmd := by
  simp only [Machine.replying, Machine.announced]

/-- The announcement of an app does not move the load address. -/
theorem loadaddr_announced (cmd : Vector UInt8 128) (ctx : Context) :
    (ctx.announced cmd).loadaddr = ctx.loadaddr := by
  rw [Context.announced, contextWithUss]
  split <;> rfl

/-- After the announcement nothing has been stored yet. -/
theorem loading_announced
    (plan : StartPlan)
    (cmd : Vector UInt8 128)
    (sized : AppSize (requestedSize cmd))
    (replies : List (List UInt8))
    (m : Machine) :
    Loading plan cmd [] (plan.context.announced cmd)
      ((m.announced cmd).replying replies) where
  size := appSize_announced cmd replies m
  sized := sized
  context := by
    rw [left_announced, loadaddr_announced]
    rw [Context.announced, contextWithUss]
    split <;> rfl
  more := by
    rw [left_announced]
    exact sized.1
  balance := by
    rw [left_announced, appSize_announced, List.flatten_nil,
      List.length_nil, Nat.zero_add]
  address := by
    rw [loadaddr_announced]
    rfl
  stored := read_zero _ _

/-- The number of bytes taken from a block. -/
theorem toNat_chunkLength (left : UInt32) :
    (chunkLength left).toNat = min left.toNat 127 := by
  have limit : (127 : UInt32).toNat = 127 := rfl
  rw [chunkLength]
  split <;> rename_i large <;>
    rw [gt_iff_lt, UInt32.lt_iff_toNat_lt, limit] at large <;>
    omega

/-- What is left after a block. -/
theorem toNat_advanced_left (ctx : Context) :
    ctx.advanced.left.toNat = ctx.left.toNat - min ctx.left.toNat 127 := by
  have fewer : chunkLength ctx.left ≤ ctx.left := by
    rw [UInt32.le_iff_toNat_le, toNat_chunkLength]
    exact Nat.min_le_left _ _
  rw [Context.advanced, UInt32.toNat_sub_of_le _ _ fewer,
    toNat_chunkLength]

/-- Blocks have 127 bytes. -/
theorem length_block (cmd : Vector UInt8 128) :
    (cmd.toList.drop 1).length = 127 := by
  simp

/-- A block behind the stored ones, as far as it belongs to the app. -/
theorem Loading.read_received
    {plan : StartPlan}
    {cmd : Vector UInt8 128}
    {blocks : List (List UInt8)}
    {ctx : Context}
    {m : Machine}
    (loading : Loading plan cmd blocks ctx m)
    (data : Vector UInt8 128) :
    read (m.received data ctx).ram ramBase.toNat
        (blocks.flatten.length + min ctx.left.toNat 127) =
      blocks.flatten ++
        (data.toList.drop 1).take (min ctx.left.toNat 127) := by
  have stored :
      (chunk data ctx.left).length = min ctx.left.toNat 127 := by
    rw [chunk, toNat_chunkLength, List.length_take, length_block]
    omega
  have extended :=
    read_write_append m.ram ramBase.toNat blocks.flatten.length
      (chunk data ctx.left)
  rw [stored, loading.stored, ← loading.address] at extended
  rw [chunk, toNat_chunkLength] at extended
  simp only [Machine.received, chunk, toNat_chunkLength]
  exact extended

/-- The load address after a block. -/
theorem Loading.address_advanced
    {plan : StartPlan}
    {cmd : Vector UInt8 128}
    {blocks : List (List UInt8)}
    {ctx : Context}
    {m : Machine}
    (loading : Loading plan cmd blocks ctx m) :
    ctx.advanced.loadaddr.toNat =
      ramBase.toNat + blocks.flatten.length + min ctx.left.toNat 127 := by
  have base : ramBase.toNat = 0x40000000 := rfl
  have balance := loading.balance
  have address := loading.address
  have size := loading.sized.2
  rw [← loading.size] at size
  rw [Context.advanced, UInt32.toNat_add, toNat_chunkLength,
    Nat.mod_eq_of_lt] <;>
    omega

/-- The next block lies inside of the announced app, so in app RAM. -/
theorem Loading.in_ram
    {plan : StartPlan}
    {cmd : Vector UInt8 128}
    {blocks : List (List UInt8)}
    {ctx : Context}
    {m : Machine}
    (loading : Loading plan cmd blocks ctx m) :
    InRam ctx.loadaddr (chunkLength ctx.left).toNat ∧
      ctx.loadaddr.toNat + (chunkLength ctx.left).toNat ≤
        ramBase.toNat + m.appSize.toNat ∧
      m.appSize.toNat ≤ 0x20000 := by
  have base : ramBase.toNat = 0x40000000 := rfl
  have length : ramSize.toNat = 0x20000 := rfl
  have balance := loading.balance
  have address := loading.address
  have size := loading.sized.2
  rw [← loading.size] at size
  have taken := toNat_chunkLength ctx.left
  simp only [InRam, base, length] at *
  omega

/-- A block that does not end the app. -/
theorem Loading.more_data
    {plan : StartPlan}
    {cmd : Vector UInt8 128}
    {blocks : List (List UInt8)}
    {ctx : Context}
    {m : Machine}
    (loading : Loading plan cmd blocks ctx m)
    (data : Vector UInt8 128)
    (more : ctx.advanced.left ≠ 0)
    (replies : List (List UInt8)) :
    Loading plan cmd (blocks ++ [data.toList.drop 1]) ctx.advanced
      ((m.received data ctx).replying replies) := by
  have left := toNat_advanced_left ctx
  have nonzero : ctx.advanced.left.toNat ≠ 0 := fun zero =>
    more (UInt32.toNat_inj.mp zero)
  have full : min ctx.left.toNat 127 = 127 := by omega
  have flatten :
      (blocks ++ [data.toList.drop 1]).flatten =
        blocks.flatten ++ data.toList.drop 1 := by
    simp
  have length :
      (blocks ++ [data.toList.drop 1]).flatten.length =
        blocks.flatten.length + 127 := by
    rw [flatten, List.length_append, length_block]
  have received := loading.read_received data
  rw [full] at received left
  have balance := loading.balance
  refine
    { size := loading.size
      sized := loading.sized
      context := ?_
      more := Nat.pos_of_ne_zero nonzero
      balance := ?_
      address := ?_
      stored := ?_ }
  · have context := loading.context
    rw [Context.advanced, context]
  · have sameSize :
        ((m.received data ctx).replying replies).appSize = m.appSize := by
      simp only [Machine.replying, Machine.received]
    rw [length, sameSize, left]
    omega
  · have address := loading.address_advanced
    rw [full] at address
    rw [length, address, Nat.add_assoc]
  · have sameRam :
        ((m.received data ctx).replying replies).ram =
          (m.received data ctx).ram := by
      simp only [Machine.replying]
    rw [length, sameRam, received, flatten,
      List.take_of_length_le (length_block data).le]

/-- The context of a client start is that of its plan, with the USS. -/
theorem Loading.context_eq
    {plan : StartPlan}
    {cmd : Vector UInt8 128}
    {blocks : List (List UInt8)}
    {ctx : Context}
    {m : Machine}
    (loading : Loading plan cmd blocks ctx m) :
    ctx.verDigest = plan.verDigest ∧
      ctx.givenUss = announcedUss cmd := by
  rw [loading.context, Context.givenUss, contextWithUss, announcedUss]
  split <;> exact ⟨rfl, rfl⟩

/-- The block that ends the app completes it in app RAM. -/
theorem Loading.last_data
    {plan : StartPlan}
    {cmd : Vector UInt8 128}
    {blocks : List (List UInt8)}
    {ctx : Context}
    {m : Machine}
    (loading : Loading plan cmd blocks ctx m)
    (fresh : Fresh requested m)
    (isPlan : requested.plan = some plan)
    (isClient : plan.source = .client)
    {heard : List Incoming}
    (data : Vector UInt8 128)
    (transfer :
      Transfer cmd heard (blocks ++ [data.toList.drop 1]))
    (last : ctx.advanced.left = 0)
    (replies : List (List UInt8)) :
    Prepared requested heard
      { ctx.advanced with digest := (m.received data ctx).measured }
      ((m.received data ctx).replying replies) := by
  have left := toNat_advanced_left ctx
  have zero : (0 : UInt32).toNat = 0 := rfl
  rw [last, zero] at left
  have rest : min ctx.left.toNat 127 = ctx.left.toNat := by omega
  have sameSize :
      ((m.received data ctx).replying replies).appSize = m.appSize := by
    simp only [Machine.replying, Machine.received]
  have sameRam :
      ((m.received data ctx).replying replies).ram =
        (m.received data ctx).ram := by
    simp only [Machine.replying]
  have received := loading.read_received data
  have balance := loading.balance
  rw [rest, balance] at received
  have size := loading.size
  have whole :
      (blocks ++ [data.toList.drop 1]).flatten.take
          (requestedSize cmd).toNat =
        blocks.flatten ++ (data.toList.drop 1).take ctx.left.toNat := by
    rw [← size, ← balance, List.flatten_append, List.flatten_singleton,
      List.take_length_add_append]
  obtain ⟨verified, uss⟩ := loading.context_eq
  have plan_eq :
      plan = { source := .client, verDigest := plan.verDigest } := by
    rw [← isClient]
  refine
    { sized := ?_
      measured := ?_
      origin :=
        .client cmd (blocks ++ [data.toList.drop 1]) plan.verDigest ?_
          transfer ?_ ?_ ?_ ?_ ?_ }
  · rw [sameSize, size]
    exact loading.sized
  · rw [Machine.measured, Machine.measured, Machine.image, Machine.image,
      sameRam, sameSize]
    rfl
  · rw [isPlan]
    exact congrArg some plan_eq
  · rw [sameSize, size]
  · rw [Machine.image, sameRam, sameSize, received, whole]
  · have kept :
        ((m.received data ctx).replying replies).currentAppDigest =
          m.currentAppDigest := by
      simp only [Machine.replying, Machine.received]
    rw [kept]
    exact fresh.currentAppDigest
  · exact verified
  · exact uss

/-- Slot numbers are different for different slots. -/
theorem slotByte_inj
    {left right : Fin 2}
    (same : slotByte left = slotByte right) :
    left = right := by
  rw [← slotByte_index left, ← slotByte_index right]
  exact Fin.ext (congrArg UInt8.toNat same)

/-- An app that was copied from a slot is complete in app RAM. -/
theorem image_loadedFrom
    (slot : Fin 2)
    (m : Machine) :
    (m.loadedFrom slot).image =
      read m.flash.memory (appStart slot)
        (m.table.app slot).size.toNat := by
  have back :=
    read_write_same m.ram ramBase.toNat
      (read m.flash.memory (appStart slot)
        (m.table.app slot).size.toNat)
  rw [length_read] at back
  exact back

/-- Remembering a digest leaves the app as it is. -/
theorem Machine.image_remembered
    (m : Machine)
    (digest : Vector UInt8 32) :
    Machine.image { m with currentAppDigest := digest } = m.image :=
  rfl

/-- A start from flash, with or without the digest remembered. -/
theorem prepared_loaded
    {m : Machine}
    (fresh : Fresh requested m)
    {slot : Fin 2}
    {managed : Bool}
    {plan : StartPlan}
    (isPlan : requested.plan = some plan)
    (isFlash : plan.source = .flash slot managed)
    (sized : AppSize (m.table.app slot).size)
    {m' : Machine}
    (loaded : m'.image = (m.loadedFrom slot).image)
    (sameSize : m'.appSize = (m.loadedFrom slot).appSize)
    (sameFlash : m'.flash = m.flash)
    (sameTable : m'.table = m.table)
    (remembered :
      m'.currentAppDigest =
        if managed then (m.loadedFrom slot).measured
        else m.currentAppDigest) :
    Prepared requested []
      { plan.context with digest := (m.loadedFrom slot).measured }
      m' := by
  have plan_eq :
      plan =
        { source := .flash slot managed, verDigest := plan.verDigest } := by
    rw [← isFlash]
  refine
    { sized := ?_
      measured := ?_
      origin := .flash slot managed plan.verDigest ?_ rfl ?_ ?_ rfl rfl }
  · rw [sameSize]
    exact sized
  · rw [Machine.measured, Machine.measured, loaded]
  · rw [isPlan]
    exact congrArg some plan_eq
  · rw [loaded, image_loadedFrom, sameFlash, sameTable]
  · rw [remembered, fresh.currentAppDigest]

/-- The start of an app keeps what is known of it. -/
theorem Prepared.started
    {heard : List Incoming}
    {ctx : Context}
    {m : Machine}
    (prepared : Prepared requested heard ctx m)
    (device : Device) :
    Prepared requested heard ctx (m.started device ctx) where
  sized := prepared.sized
  measured := prepared.measured
  origin := by
    cases prepared.origin with
    | flash slot managed verDigest isPlan silent image remembered verified
        noUss =>
        exact
          .flash slot managed verDigest isPlan silent image remembered
            verified noUss
    | client cmd blocks verDigest isPlan transfer size image forgotten
        verified uss =>
        exact
          .client cmd blocks verDigest isPlan transfer size image forgotten
            verified uss

/-- An iteration keeps the invariant until the firmware jumps to an app. -/
theorem invariant_iteration
    {heard : List Incoming}
    {incoming : Incoming}
    {state : FwState}
    {ctx : Context}
    {m : Machine}
    {result : EStateM.Result Stop Machine Next}
    (invariant : LoopInvariant requested heard state ctx m)
    (iteration : Iteration device incoming ctx m state result) :
    AfterIteration device requested
      (System.hearing state incoming heard) result := by
  cases iteration with
  | decided =>
      cases invariant with
      | initial fresh =>
          exact invariant_decided fresh
  | refusedCommand refused =>
      exact .fail
  | answered hdr cmd replies frame harmless =>
      cases invariant with
      | waiting plan fresh isPlan isClient harmlessBefore =>
          refine .waiting plan (fresh.replying replies) isPlan isClient ?_
          intro other member
          rcases List.mem_append.mp member with before | isLast
          · exact harmlessBefore other before
          · rw [List.mem_singleton.mp isLast]
            exact ⟨hdr, cmd, frame, harmless⟩
  | announced hdr cmd replies frame isLoadApp sized =>
      cases invariant with
      | waiting plan fresh isPlan isClient harmless =>
          exact
            .loading plan cmd [] ((fresh.announced cmd).replying replies)
              isPlan isClient
              (.announced incoming harmless ⟨hdr, frame, isLoadApp, sized⟩)
              (loading_announced plan cmd sized replies m)
  | refusedData refused =>
      exact .fail
  | moreData hdr data replies frame isData inRam more =>
      cases invariant with
      | loading plan cmd blocks fresh isPlan isClient transfer loading =>
          exact
            .loading plan cmd _ ((fresh.received data ctx).replying replies)
              isPlan isClient
              (.block incoming transfer _ ⟨hdr, data, frame, isData, rfl⟩)
              (loading.more_data data more replies)
  | lastData hdr data replies frame isData inRam last fits =>
      cases invariant with
      | loading plan cmd blocks fresh isPlan isClient transfer loading =>
          exact
            .start ((fresh.received data ctx).replying replies).resetinfo
              (loading.last_data fresh isPlan isClient data
                (.block incoming transfer _
                  ⟨hdr, data, frame, isData, rfl⟩)
                last replies)
  | dataFault ram outside =>
      trivial
  | noApp state isFlash missing =>
      exact .fail
  | largeApp state isFlash slot isSlot large =>
      trivial
  | loaded slot isSlot sized =>
      cases invariant with
      | loadFlash planned plan fresh isPlan isFlash =>
          have same : planned = slot := by
            apply slotByte_inj
            rw [← isSlot, StartPlan.context, isFlash]
            rfl
          subst same
          exact
            .start fresh.resetinfo
              (prepared_loaded fresh isPlan isFlash sized rfl rfl rfl rfl
                rfl)
  | loadedMgmt slot isSlot sized =>
      cases invariant with
      | loadFlashMgmt planned plan fresh isPlan isFlash =>
          have same : planned = slot := by
            apply slotByte_inj
            rw [← isSlot, StartPlan.context, isFlash]
            rfl
          subst same
          exact
            .start fresh.resetinfo
              (prepared_loaded fresh isPlan isFlash sized
                ((m.loadedFrom planned).image_remembered _) rfl rfl rfl
                (if_pos rfl).symm)
  | started accepted =>
      cases invariant with
      | start resetinfo prepared =>
          rw [resetinfo] at accepted
          refine
            { prepared := prepared.started device
              accepted := accepted
              cdi := ?_
              resetinfo := ?_
              entry := rfl }
          · simp only [Machine.started, resetinfo]
          · simp only [Machine.started, resetinfo]
  | rejected mismatch =>
      exact .fail
  | failed =>
      trivial

end Steps

section Runs

/-- The registers and records that a running app cannot change. -/
structure Machine.RunsOn (start m : Machine) : Prop where
  cdi : m.cdi = start.cdi
  currentAppDigest : m.currentAppDigest = start.currentAppDigest
  resetinfo : m.resetinfo = start.resetinfo
  appSize : m.appSize = start.appSize
  appAddr : m.appAddr = start.appAddr

theorem Machine.RunsOn.refl (m : Machine) : m.RunsOn m :=
  ⟨rfl, rfl, rfl, rfl, rfl⟩

theorem Machine.RunsOn.trans
    {first second third : Machine}
    (earlier : first.RunsOn second)
    (later : second.RunsOn third) :
    first.RunsOn third where
  cdi := later.cdi.trans earlier.cdi
  currentAppDigest :=
    later.currentAppDigest.trans earlier.currentAppDigest
  resetinfo := later.resetinfo.trans earlier.resetinfo
  appSize := later.appSize.trans earlier.appSize
  appAddr := later.appAddr.trans earlier.appAddr

theorem Machine.runsOn_perform
    (commands : List NorFlash.Command)
    (m : Machine) :
    m.RunsOn (m.perform commands) :=
  ⟨rfl, rfl, rfl, rfl, rfl⟩

theorem Machine.runsOn_updateTable
    (before : List NorFlash.Command)
    (table : PartitionTable)
    (after : List NorFlash.Command)
    (m : Machine) :
    m.RunsOn (m.updateTable before table after) := by
  unfold updateTable
  exact ⟨rfl, rfl, rfl, rfl, rfl⟩

/-- A system call that returns keeps the identity of the app. -/
theorem Outcome.runsOn
    {device : Device}
    {call : Call}
    {m m' : Machine}
    {value : Int}
    (outcome : Outcome device call m (.ok value m')) :
    m.RunsOn m' := by
  cases outcome with
  | quiet value ram =>
      exact ⟨rfl, rfl, rfl, rfl, rfl⟩
  | eraseSectors | writeData | store =>
      exact m.runsOn_perform _
  | allocate | deallocate | finalize | delete | setPubkey | eraseAreas =>
      exact m.runsOn_updateTable _ _ _

/-- What holds in each phase of a device. -/
inductive System.Sound (device : Device) : System → Prop where
  | looping {requested : Reset} {heard : List Incoming} {state : FwState}
      {ctx : Context} {m : Machine}
      (invariant : LoopInvariant requested heard state ctx m) :
      Sound device (.looping requested heard state ctx m)
  | running {launch : Launch} {m : Machine}
      (launched : Launched device launch)
      (runsOn : launch.machine.RunsOn m) :
      Sound device (.running launch m)
  | stopped (m : Machine) : Sound device (.stopped m)

/-- A boot starts from nothing but the reset record. -/
theorem fresh_entered
    (chip : FlashChip)
    (scrambled : Memory)
    (info : Reset)
    (copy : TableCopy) :
    Fresh info ((Machine.entered chip scrambled info).withCopy copy) := by
  have kept (m : Machine) (fresh : Fresh info m) :
      Fresh info (m.withCopy copy) := by
    unfold Machine.withCopy
    exact ⟨fresh.resetinfo, fresh.currentAppDigest⟩
  apply kept
  constructor <;> simp only [Machine.entered]

theorem sound_boot
    (device : Device)
    (chip : FlashChip)
    (scrambled : Memory)
    (info : Reset) :
    (System.boot chip scrambled info).Sound device := by
  cases usable : usableCopy chip.memory with
  | none =>
      rw [boot_of_unusable usable]
      exact .stopped _
  | some copy =>
      rw [boot_of_usable usable]
      exact .looping (.initial (fresh_entered chip scrambled info copy))

/-- An iteration stops the device, keeps the loop going or starts an app. -/
theorem step_iteration
    {device : Device}
    {requested : Reset}
    {heard : List Incoming}
    {state : FwState}
    {ctx : Context}
    {m : Machine}
    {motive : System → Prop}
    (invariant : LoopInvariant requested heard state ctx m)
    (incoming : Incoming)
    (stopped : ∀ m', motive (.stopped m'))
    (looping :
      ∀ {heard' state' ctx' m'},
        LoopInvariant requested heard' state' ctx' m' →
          motive (.looping requested heard' state' ctx' m'))
    (running :
      ∀ launch,
        launch.requested = requested →
          Launched device launch →
            motive (.running launch launch.machine)) :
    motive
      (System.step device (.looping requested heard state ctx m)
        (.iteration incoming)) := by
  have after :=
    invariant_iteration invariant
      (iterate_outcome device incoming state ctx m)
  rw [System.step]
  cases result : (iterate device incoming state ctx).run m with
  | error stop m' =>
      exact stopped m'
  | ok next m' =>
      rw [result] at after
      cases next with
      | loop state' ctx' =>
          exact looping after
      | jump ctx' =>
          exact running _ rfl after

/-- An iteration leaves a sound device. -/
theorem sound_iteration
    {device : Device}
    {requested : Reset}
    {heard : List Incoming}
    {state : FwState}
    {ctx : Context}
    {m : Machine}
    (invariant : LoopInvariant requested heard state ctx m)
    (incoming : Incoming) :
    (System.step device (.looping requested heard state ctx m)
      (.iteration incoming)).Sound device :=
  step_iteration invariant incoming .stopped .looping
    fun launch _ launched => .running launched (.refl launch.machine)

/-- A system call leaves a sound device. -/
theorem sound_syscall
    {device : Device}
    {launch : Launch}
    {m : Machine}
    (launched : Launched device launch)
    (runsOn : launch.machine.RunsOn m)
    (call : Call)
    (scrambled : Memory) :
    (System.step device (.running launch m)
      (.syscall call scrambled)).Sound device := by
  have outcome := syscallHandler_outcome device call m
  rw [System.step]
  cases result : (syscallHandler device call).run m with
  | ok value m' =>
      rw [result] at outcome
      exact .running launched (runsOn.trans outcome.runsOn)
  | error stop m' =>
      cases stop with
      | systemReset =>
          exact sound_boot device m'.flash scrambled m'.resetinfo
      | halt =>
          exact .stopped m'
      | fault =>
          exact .stopped m'

/-- Every event keeps a device sound. -/
theorem sound_step
    {device : Device}
    (system : System)
    (event : Event)
    (sound : system.Sound device) :
    (System.step device system event).Sound device := by
  cases event with
  | powerUp chip scrambled info =>
      rw [System.step_powerUp]
      exact sound_boot device chip scrambled info
  | appWrites ram =>
      cases sound with
      | running launched runsOn =>
          exact .running launched (runsOn.trans ⟨rfl, rfl, rfl, rfl, rfl⟩)
      | looping invariant =>
          exact .looping invariant
      | stopped m =>
          exact .stopped m
  | iteration incoming =>
      cases sound with
      | looping invariant =>
          exact sound_iteration invariant incoming
      | running launched runsOn =>
          exact .running launched runsOn
      | stopped m =>
          exact .stopped m
  | syscall call scrambled =>
      cases sound with
      | running launched runsOn =>
          exact sound_syscall launched runsOn call scrambled
      | looping invariant =>
          exact .looping invariant
      | stopped m =>
          exact .stopped m

/-- A device is sound after any events. -/
theorem sound_fromBoot
    (device : Device)
    (chip : FlashChip)
    (scrambled : Memory)
    (info : Reset)
    (events : List Event) :
    (System.fromBoot device chip scrambled info events).Sound device := by
  rw [System.fromBoot]
  exact
    @System.run_induction device (System.Sound device) sound_step _
      (sound_boot device chip scrambled info) events

end Runs

end TKey
