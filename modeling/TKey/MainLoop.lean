import TKey.System

namespace TKey

open ByteMemory

/-!
# Iterations of the main loop

What one iteration of the main loop can do in each state, and the invariant
that the loop keeps from a boot until it jumps to an app.
-/

section Commands

/-- A size that an app may have. -/
def AppSize (size : UInt32) : Prop :=
  1 ≤ size.toNat ∧ size.toNat ≤ 0x20000

instance (size : UInt32) : Decidable (AppSize size) :=
  inferInstanceAs (Decidable (_ ∧ _))

/-- The machine apart from the replies it has sent. -/
def Machine.replying (replies : List (List UInt8)) (m : Machine) : Machine :=
  { m with replies := replies }

/-- The context after the size of an app was announced. -/
def Context.announced (cmd : Vector UInt8 128) (ctx : Context) : Context :=
  { contextWithUss cmd ctx with left := requestedSize cmd }

/-- The machine after the size of an app was announced. -/
def Machine.announced
    (cmd : Vector UInt8 128)
    (m : Machine) : Machine :=
  { m with appSize := requestedSize cmd }

/-- The bytes of the app in a `LOAD_APP_DATA` command. -/
def chunk (cmd : Vector UInt8 128) (left : UInt32) : List UInt8 :=
  (cmd.toList.drop 1).take (chunkLength left).toNat

/-- The context after a chunk was stored. -/
def Context.advanced (ctx : Context) : Context :=
  { ctx with
    loadaddr := ctx.loadaddr + chunkLength ctx.left
    left := ctx.left - chunkLength ctx.left }

/-- The machine after a chunk was stored. -/
def Machine.received
    (cmd : Vector UInt8 128)
    (ctx : Context)
    (m : Machine) : Machine :=
  { m with ram := write m.ram ctx.loadaddr.toNat (chunk cmd ctx.left) }

end Commands

/-- What an iteration of the main loop can do in each state. -/
inductive Iteration
    (device : Device)
    (incoming : Incoming)
    (ctx : Context)
    (m : Machine) :
    FwState → EStateM.Result Stop Machine Next → Prop where
  /-- The reset record decides how to go on. -/
  | decided :
      Iteration device incoming ctx m .initial
        (.ok
          (.loop (startDecision m.resetinfo ctx).1
            (startDecision m.resetinfo ctx).2) m)
  /-- A frame that the waiting firmware does not accept. -/
  | refusedCommand
      (refused :
        ∀ hdr cmd, readcommand incoming = some (hdr, cmd) →
          ¬ IsQuery hdr cmd ∧ ¬ IsLoadApp hdr cmd) :
      Iteration device incoming ctx m .waitcommand
        (.ok (.loop .fail ctx) m)
  /-- A question about the device, or a size that is no app size. -/
  | answered
      (hdr : FrameHeader)
      (cmd : Vector UInt8 128)
      (replies : List (List UInt8))
      (frame : readcommand incoming = some (hdr, cmd))
      (harmless :
        IsQuery hdr cmd ∨
          (IsLoadApp hdr cmd ∧ ¬ AppSize (requestedSize cmd))) :
      Iteration device incoming ctx m .waitcommand
        (.ok (.loop .waitcommand ctx) (m.replying replies))
  /-- The size of an app is announced. -/
  | announced
      (hdr : FrameHeader)
      (cmd : Vector UInt8 128)
      (replies : List (List UInt8))
      (frame : readcommand incoming = some (hdr, cmd))
      (isLoadApp : IsLoadApp hdr cmd)
      (sized : AppSize (requestedSize cmd)) :
      Iteration device incoming ctx m .waitcommand
        (.ok (.loop .loading (ctx.announced cmd))
          ((m.announced cmd).replying replies))
  /-- A frame that the loading firmware does not accept. -/
  | refusedData
      (refused :
        ∀ hdr cmd, readcommand incoming = some (hdr, cmd) →
          ¬ IsLoadAppData hdr cmd) :
      Iteration device incoming ctx m .loading
        (.ok (.loop .fail ctx) m)
  /-- A chunk that does not end the app. -/
  | moreData
      (hdr : FrameHeader)
      (cmd : Vector UInt8 128)
      (replies : List (List UInt8))
      (frame : readcommand incoming = some (hdr, cmd))
      (isData : IsLoadAppData hdr cmd)
      (inRam : InRam ctx.loadaddr (chunk cmd ctx.left).length)
      (more : ctx.advanced.left ≠ 0) :
      Iteration device incoming ctx m .loading
        (.ok (.loop .loading ctx.advanced)
          ((m.received cmd ctx).replying replies))
  /-- The last chunk of the app. -/
  | lastData
      (hdr : FrameHeader)
      (cmd : Vector UInt8 128)
      (replies : List (List UInt8))
      (frame : readcommand incoming = some (hdr, cmd))
      (isData : IsLoadAppData hdr cmd)
      (inRam : InRam ctx.loadaddr (chunk cmd ctx.left).length)
      (last : ctx.advanced.left = 0)
      (fits : m.appSize.toNat ≤ 0x20000) :
      Iteration device incoming ctx m .loading
        (.ok
          (.loop .start
            { ctx.advanced with digest := (m.received cmd ctx).measured })
          ((m.received cmd ctx).replying replies))
  /-- A chunk or an app outside of app RAM. -/
  | dataFault
      (ram : Memory)
      (outside :
        ¬ InRam ctx.loadaddr (chunkLength ctx.left).toNat ∨
          ¬ m.appSize.toNat ≤ 0x20000) :
      Iteration device incoming ctx m .loading
        (.error .fault { m with ram := ram })
  /-- The slot holds no app, or there is no such slot. -/
  | noApp
      (state : FwState)
      (isFlash : state = .loadFlash ∨ state = .loadFlashMgmt)
      (missing :
        ∀ slot, ctx.flashSlot = slotByte slot →
          (m.table.app slot).size = 0) :
      Iteration device incoming ctx m state (.ok (.loop .fail ctx) m)
  /-- The app in the slot does not fit into app RAM. -/
  | largeApp
      (state : FwState)
      (isFlash : state = .loadFlash ∨ state = .loadFlashMgmt)
      (slot : Fin 2)
      (isSlot : ctx.flashSlot = slotByte slot)
      (large : ¬ (m.table.app slot).size.toNat ≤ 0x20000) :
      Iteration device incoming ctx m state (.error .fault m)
  /-- An app is loaded from flash. -/
  | loaded
      (slot : Fin 2)
      (isSlot : ctx.flashSlot = slotByte slot)
      (sized : AppSize (m.table.app slot).size) :
      Iteration device incoming ctx m .loadFlash
        (.ok
          (.loop .start
            { ctx with digest := (m.loadedFrom slot).measured })
          (m.loadedFrom slot))
  /-- A prospective management app is loaded from flash. -/
  | loadedMgmt
      (slot : Fin 2)
      (isSlot : ctx.flashSlot = slotByte slot)
      (sized : AppSize (m.table.app slot).size) :
      Iteration device incoming ctx m .loadFlashMgmt
        (.ok
          (.loop .start
            { ctx with digest := (m.loadedFrom slot).measured })
          { m.loadedFrom slot with
            currentAppDigest := (m.loadedFrom slot).measured })
  /-- The app is started. -/
  | started (accepted : DigestAccepted device m.resetinfo ctx) :
      Iteration device incoming ctx m .start
        (.ok (.jump ctx) (m.started device ctx))
  /-- The app does not have the required digest. -/
  | rejected (mismatch : ¬ DigestAccepted device m.resetinfo ctx) :
      Iteration device incoming ctx m .start
        (.ok (.loop .fail ctx) (m.rejected device ctx))
  /-- The firmware gives up. -/
  | failed : Iteration device incoming ctx m .fail (.error .halt m)

section Outcomes

variable {device : Device} {incoming : Incoming} {ctx : Context}

/-- An iteration hands on what its command function returns. -/
private theorem run_loop_of_ok
    {program : Fw (FwState × Context)}
    {m : Machine}
    (m' : Machine)
    (state : FwState)
    (ctx' : Context)
    (returns : program.run m = .ok (state, ctx') m') :
    (do
      let next ← program
      return Next.loop next.1 next.2 : Fw Next).run m =
      .ok (.loop state ctx') m' := by
  rw [Fw.run_bind_of_ok returns]
  rfl

private theorem appSize_iff (size : UInt32) :
    (size = 0 ∨ size > appMaxSize) ↔ ¬ AppSize size := by
  have limit : appMaxSize.toNat = 0x20000 := rfl
  have zero : (0 : UInt32).toNat = 0 := rfl
  rw [AppSize, gt_iff_lt, UInt32.lt_iff_toNat_lt, limit,
    ← UInt32.toNat_inj, zero]
  omega

/-- Accepting an app size replies and records how much is left to load. -/
private theorem acceptSize_run
    (hdr : FrameHeader)
    (ctx : Context)
    {m : Machine}
    (nonzero : m.appSize ≠ 0)
    (small : m.appSize ≤ appMaxSize) :
    ∃ replies,
      (do
        fwreply hdr fwRspLoadApp (toVector 128 [statusOk])
        let m ← get
        Fw.assert (m.appSize ≠ 0)
        Fw.assert (m.appSize ≤ appMaxSize)
        return (.loading, { ctx with left := m.appSize }) :
          Fw (FwState × Context)).run m =
        .ok (.loading, { ctx with left := m.appSize })
          (m.replying replies) := by
  obtain ⟨replies, replied⟩ :=
    fwreply_run hdr fwRspLoadApp (toVector 128 [statusOk]) m
  refine ⟨replies, ?_⟩
  rw [Fw.run_bind_of_ok replied, Fw.run_get_bind,
    Fw.run_assert_bind nonzero, Fw.run_assert_bind small]
  rfl

/-- What the waiting firmware does with a frame. -/
private theorem waiting_outcome
    (hdr : FrameHeader)
    (cmd : Vector UInt8 128)
    (frame : readcommand incoming = some (hdr, cmd))
    (m : Machine) :
    Iteration device incoming ctx m .waitcommand
      ((do
        let next ← initialCommands device hdr cmd .waitcommand ctx
        return Next.loop next.1 next.2 : Fw Next).run m) := by
  have refuse
      (noQuery : ¬ IsQuery hdr cmd)
      (noLoad : ¬ IsLoadApp hdr cmd) :
      Iteration device incoming ctx m .waitcommand
        (.ok (.loop .fail ctx) m) := by
    apply Iteration.refusedCommand
    intro hdr' cmd' frame'
    rw [frame] at frame'
    cases frame'
    exact ⟨noQuery, noLoad⟩
  have nameIsNotUdi : fwCmdNameVersion ≠ fwCmdGetUdi := by decide
  have nameIsNotLoad : fwCmdNameVersion ≠ fwCmdLoadApp := by decide
  have udiIsNotLoad : fwCmdGetUdi ≠ fwCmdLoadApp := by decide
  by_cases isName : cmd[0] = fwCmdNameVersion
  · by_cases short : hdr.len = 1
    · obtain ⟨replies, replied⟩ :=
        fwreply_run hdr fwRspNameVersion
          (toVector 128
            (copyName device.name0 ++ copyName device.name1 ++
              (PackedLayout.word device.version).toList)) m
      rw [run_loop_of_ok (m.replying replies) .waitcommand ctx]
      · exact .answered hdr cmd replies frame
          (.inl (.inl ⟨isName, short⟩))
      · rw [initialCommands, if_pos isName, if_neg (not_not.mpr short),
          Fw.run_bind_of_ok replied]
        rfl
    · rw [run_loop_of_ok m .fail ctx]
      · apply refuse
        · rintro (⟨_, length⟩ | ⟨isUdi, _⟩)
          · exact short length
          · exact nameIsNotUdi (isName.symm.trans isUdi)
        · rintro ⟨isLoad, _⟩
          exact nameIsNotLoad (isName.symm.trans isLoad)
      · rw [initialCommands, if_pos isName, if_pos short]
        rfl
  by_cases isUdi : cmd[0] = fwCmdGetUdi
  · by_cases short : hdr.len = 1
    · obtain ⟨replies, replied⟩ :=
        fwreply_run hdr fwRspGetUdi
          (toVector 128
            (statusOk ::
              (PackedLayout.word device.vidpid).toList ++
              (PackedLayout.word device.udi[1]).toList)) m
      rw [run_loop_of_ok (m.replying replies) .waitcommand ctx]
      · exact .answered hdr cmd replies frame
          (.inl (.inr ⟨isUdi, short⟩))
      · rw [initialCommands, if_neg isName, if_pos isUdi,
          if_neg (not_not.mpr short), Fw.run_bind_of_ok replied]
        rfl
    · rw [run_loop_of_ok m .fail ctx]
      · apply refuse
        · rintro (⟨named, _⟩ | ⟨_, length⟩)
          · exact isName named
          · exact short length
        · rintro ⟨isLoad, _⟩
          exact udiIsNotLoad (isUdi.symm.trans isLoad)
      · rw [initialCommands, if_neg isName, if_pos isUdi, if_pos short]
        rfl
  have noQuery : ¬ IsQuery hdr cmd := by
    rintro (⟨named, _⟩ | ⟨asked, _⟩)
    · exact isName named
    · exact isUdi asked
  by_cases isLoad : cmd[0] = fwCmdLoadApp
  case neg =>
    rw [run_loop_of_ok m .fail ctx]
    · exact refuse noQuery fun loads => isLoad loads.1
    · rw [initialCommands, if_neg isName, if_neg isUdi, if_neg isLoad]
      rfl
  by_cases full : hdr.len = 128
  case neg =>
    rw [run_loop_of_ok m .fail ctx]
    · exact refuse noQuery fun loads => full loads.2
    · rw [initialCommands, if_neg isName, if_neg isUdi, if_pos isLoad,
        if_pos full]
      rfl
  by_cases sized : AppSize (requestedSize cmd)
  · have refusedSize := (appSize_iff (requestedSize cmd)).not_left.mpr sized
    obtain ⟨replies, accepted⟩ :=
      acceptSize_run hdr (contextWithUss cmd ctx) (m := m.announced cmd)
        (fun zero => refusedSize (.inl zero))
        (UInt32.not_lt.mp fun large => refusedSize (.inr large))
    rw [run_loop_of_ok ((m.announced cmd).replying replies) .loading
      (ctx.announced cmd)]
    · exact .announced hdr cmd replies frame ⟨isLoad, full⟩ sized
    · rw [initialCommands, if_neg isName, if_neg isUdi, if_pos isLoad,
        if_neg (not_not.mpr full), if_neg refusedSize,
        Fw.run_modify_bind]
      exact accepted
  · obtain ⟨replies, replied⟩ :=
      fwreply_run hdr fwRspLoadApp (toVector 128 [statusBad]) m
    rw [run_loop_of_ok (m.replying replies) .waitcommand ctx]
    · exact .answered hdr cmd replies frame
        (.inr ⟨⟨isLoad, full⟩, sized⟩)
    · rw [initialCommands, if_neg isName, if_neg isUdi, if_pos isLoad,
        if_neg (not_not.mpr full),
        if_pos ((appSize_iff (requestedSize cmd)).mpr sized),
        Fw.run_bind_of_ok replied]
      rfl

private theorem length_chunk (cmd : Vector UInt8 128) (left : UInt32) :
    (chunk cmd left).length = (chunkLength left).toNat := by
  have bound : (chunkLength left).toNat ≤ 127 := by
    have limit : (127 : UInt32).toNat = 127 := rfl
    rw [chunkLength]
    split
    · exact limit.le
    · rename_i small
      rw [gt_iff_lt, UInt32.lt_iff_toNat_lt, limit] at small
      omega
  simp [chunk]
  omega

/-- The firmware after the last chunk measures the app. -/
private theorem finishLoading_run
    (hdr : FrameHeader)
    (ctx : Context)
    {m : Machine}
    (fits : m.appSize.toNat ≤ 0x20000) :
    ∃ replies,
      (do
        let result ← computeAppDigest
        Fw.assert (result.isSome = true)
        let ctx := { ctx with digest := result.getD ctx.digest }
        fwreply hdr fwRspLoadAppDataReady
          (toVector 128 (statusOk :: ctx.digest.toList))
        return (.start, ctx) : Fw (FwState × Context)).run m =
        .ok (.start, { ctx with digest := m.measured })
          (m.replying replies) := by
  obtain ⟨replies, replied⟩ :=
    fwreply_run hdr fwRspLoadAppDataReady
      (toVector 128 (statusOk :: m.measured.toList)) m
  refine ⟨replies, ?_⟩
  have measured : (some m.measured).isSome = true :=
    rfl
  rw [Fw.run_bind_of_ok (computeAppDigest_run fits),
    Fw.run_assert_bind measured]
  exact Fw.run_bind_of_ok replied _

/-- What the loading firmware does with a frame. -/
private theorem loading_outcome
    (hdr : FrameHeader)
    (cmd : Vector UInt8 128)
    (frame : readcommand incoming = some (hdr, cmd))
    (m : Machine) :
    Iteration device incoming ctx m .loading
      ((do
        let next ← loadingCommands hdr cmd .loading ctx
        return Next.loop next.1 next.2 : Fw Next).run m) := by
  by_cases isData : IsLoadAppData hdr cmd
  case neg =>
    rw [run_loop_of_ok m .fail ctx]
    · apply Iteration.refusedData
      intro hdr' cmd' frame'
      rw [frame] at frame'
      cases frame'
      exact isData
    · by_cases isLoad : cmd[0] = fwCmdLoadAppData
      · rw [loadingCommands, if_pos isLoad,
          if_pos fun full => isData ⟨isLoad, full⟩]
        rfl
      · rw [loadingCommands, if_neg isLoad]
        rfl
  have unfolded :
      (loadingCommands hdr cmd .loading ctx).run m =
        (do
          storeBytes ctx.loadaddr (chunk cmd ctx.left)
          if ctx.advanced.left = 0 then do
            let result ← computeAppDigest
            Fw.assert (result.isSome = true)
            let ctx :=
              { ctx.advanced with
                digest := result.getD ctx.advanced.digest }
            fwreply hdr fwRspLoadAppDataReady
              (toVector 128 (statusOk :: ctx.digest.toList))
            return (.start, ctx)
          else do
            fwreply hdr fwRspLoadAppData (toVector 128 [statusOk])
            return (.loading, ctx.advanced) :
              Fw (FwState × Context)).run m := by
    rw [loadingCommands, if_pos isData.1,
      if_neg (not_not.mpr isData.2)]
    rfl
  by_cases inRam : InRam ctx.loadaddr (chunk cmd ctx.left).length
  case neg =>
    have faults :
        (storeBytes ctx.loadaddr (chunk cmd ctx.left)).run m =
          .error .fault m := by
      simp only [storeBytes, EStateM.run, if_neg inRam]
    rw [Fw.run_bind_of_error (unfolded.trans
      (Fw.run_bind_of_error faults _))]
    refine .dataFault m.ram (.inl ?_)
    rwa [← length_chunk cmd]
  have stored := storeBytes_run inRam m
  by_cases last : ctx.advanced.left = 0
  · by_cases fits : m.appSize.toNat ≤ 0x20000
    · obtain ⟨replies, finished⟩ :=
        finishLoading_run hdr ctx.advanced
          (m := m.received cmd ctx) fits
      rw [run_loop_of_ok ((m.received cmd ctx).replying replies) .start
        { ctx.advanced with digest := (m.received cmd ctx).measured }]
      · exact .lastData hdr cmd replies frame isData inRam last fits
      · rw [unfolded, Fw.run_bind_of_ok stored, if_pos last]
        exact finished
    · have outside : ¬ InRam ramBase m.appSize.toNat := by
        have base : ramBase.toNat = 0x40000000 := rfl
        have length : ramSize.toNat = 0x20000 := rfl
        simp only [InRam, base, length]
        omega
      have faults :
          computeAppDigest.run (m.received cmd ctx) =
            .error .fault (m.received cmd ctx) := by
        have loads :
            (loadBytes ramBase m.appSize.toNat).run
                (m.received cmd ctx) =
              .error .fault (m.received cmd ctx) := by
          simp only [loadBytes, EStateM.run, if_neg outside]
        rw [computeAppDigest, Fw.run_get_bind]
        exact Fw.run_bind_of_error loads _
      have stopped :
          (loadingCommands hdr cmd .loading ctx).run m =
            .error .fault (m.received cmd ctx) := by
        rw [unfolded, Fw.run_bind_of_ok stored, if_pos last]
        exact Fw.run_bind_of_error faults _
      rw [Fw.run_bind_of_error stopped]
      exact .dataFault _ (.inr fits)
  · obtain ⟨replies, replied⟩ :=
      fwreply_run hdr fwRspLoadAppData (toVector 128 [statusOk])
        (m.received cmd ctx)
    rw [run_loop_of_ok ((m.received cmd ctx).replying replies) .loading
      ctx.advanced]
    · exact .moreData hdr cmd replies frame isData inRam last
    · rw [unfolded, Fw.run_bind_of_ok stored, if_neg last]
      exact Fw.run_bind_of_ok replied _

/-- A slot number of a context either names a slot or loads nothing. -/
private theorem loadFlashApp_cases (slot : UInt8) (m : Machine) :
    ((∀ index, slot = slotByte index → (m.table.app index).size = 0) ∧
        (loadFlashApp slot).run m = .ok none m) ∨
      ∃ index, slot = slotByte index ∧
        ((¬ (m.table.app index).size.toNat ≤ 0x20000 ∧
            (loadFlashApp slot).run m = .error .fault m) ∨
          (AppSize (m.table.app index).size ∧
            (loadFlashApp slot).run m =
              .ok (some (m.loadedFrom index).measured)
                (m.loadedFrom index))) := by
  by_cases bound : slot.toNat < nPreloadedApp
  case neg =>
    left
    constructor
    · rintro index rfl
      exact absurd (slotByte_bound index) bound
    · rw [loadFlashApp, dif_neg bound]
      rfl
  obtain ⟨index, isSlot⟩ : ∃ index, slot = slotByte index := by
    refine ⟨⟨slot.toNat, bound⟩, ?_⟩
    apply UInt8.toNat_inj.mp
    simp only [slotByte, UInt8.toNat_ofNat']
    have byte := slot.toNat_lt
    omega
  by_cases empty : (m.table.app index).size = 0
  · left
    constructor
    · intro other isOther
      have same : other = index := by
        rw [← slotByte_index other, ← slotByte_index index]
        apply Fin.ext
        exact congrArg UInt8.toNat (isOther.symm.trans isSlot)
      rwa [same]
    · rw [isSlot]
      exact loadFlashApp_run_empty empty
  right
  refine ⟨index, isSlot, ?_⟩
  by_cases fits : (m.table.app index).size.toNat ≤ 0x20000
  · right
    refine ⟨⟨?_, fits⟩, ?_⟩
    · rw [Nat.one_le_iff_ne_zero]
      intro zero
      exact empty (UInt32.toNat_inj.mp zero)
    · rw [isSlot]
      exact loadFlashApp_run empty fits
  · left
    refine ⟨fits, ?_⟩
    rw [isSlot]
    exact loadFlashApp_run_large (by omega)

/-- An iteration of the main loop does one of the things listed. -/
theorem iterate_outcome
    (device : Device)
    (incoming : Incoming)
    (state : FwState)
    (ctx : Context)
    (m : Machine) :
    Iteration device incoming ctx m state
      ((iterate device incoming state ctx).run m) := by
  cases state with
  | initial =>
      rw [iterate, Fw.run_bind_of_ok (startWhere_run ctx m)]
      exact .decided
  | waitcommand =>
      cases frame : readcommand incoming with
      | none =>
          simp only [iterate, frame]
          exact .refusedCommand fun hdr cmd found => by
            simp [frame] at found
      | some read =>
          simp only [iterate, frame]
          exact waiting_outcome read.1 read.2 frame m
  | loading =>
      cases frame : readcommand incoming with
      | none =>
          simp only [iterate, frame]
          exact .refusedData fun hdr cmd found => by
            simp [frame] at found
      | some read =>
          simp only [iterate, frame]
          exact loading_outcome read.1 read.2 frame m
  | loadFlash =>
      rw [iterate]
      rcases loadFlashApp_cases ctx.flashSlot m with
        ⟨missing, result⟩ | ⟨slot, isSlot, ⟨large, result⟩ | ⟨sized, result⟩⟩
      · rw [Fw.run_bind_of_ok result]
        exact .noApp .loadFlash (.inl rfl) missing
      · rw [Fw.run_bind_of_error result]
        exact .largeApp .loadFlash (.inl rfl) slot isSlot large
      · rw [Fw.run_bind_of_ok result]
        exact .loaded slot isSlot sized
  | loadFlashMgmt =>
      rw [iterate]
      rcases loadFlashApp_cases ctx.flashSlot m with
        ⟨missing, result⟩ | ⟨slot, isSlot, ⟨large, result⟩ | ⟨sized, result⟩⟩
      · rw [Fw.run_bind_of_ok result]
        exact .noApp .loadFlashMgmt (.inr rfl) missing
      · rw [Fw.run_bind_of_error result]
        exact .largeApp .loadFlashMgmt (.inr rfl) slot isSlot large
      · rw [Fw.run_bind_of_ok result]
        exact .loadedMgmt slot isSlot sized
  | start =>
      rw [iterate, startApp_run]
      by_cases accepted : DigestAccepted device m.resetinfo ctx
      · rw [if_pos accepted]
        exact .started accepted
      · rw [if_neg accepted]
        exact .rejected accepted
  | fail =>
      exact .failed

end Outcomes

/-- The main loop never changes flash. -/
theorem Iteration.sameFlash
    {device : Device}
    {incoming : Incoming}
    {ctx : Context}
    {m : Machine}
    {state : FwState}
    {result : EStateM.Result Stop Machine Next}
    (iteration : Iteration device incoming ctx m state result) :
    (resultMachine result).flash = m.flash := by
  cases iteration <;>
    simp only [resultMachine, Machine.replying, Machine.announced,
      Machine.received, Machine.loadedFrom, Machine.started,
      Machine.rejected]

/-- The main loop does not change the table that `main` has read. -/
theorem Iteration.sameTable
    {device : Device}
    {incoming : Incoming}
    {ctx : Context}
    {m : Machine}
    {state : FwState}
    {result : EStateM.Result Stop Machine Next}
    (iteration : Iteration device incoming ctx m state result) :
    (resultMachine result).partTableStorage = m.partTableStorage ∧
      (resultMachine result).partStatus = m.partStatus := by
  cases iteration <;>
    simp only [resultMachine, Machine.replying, Machine.announced,
      Machine.received, Machine.loadedFrom, Machine.started,
      Machine.rejected, and_self]

end TKey
