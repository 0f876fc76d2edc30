import TKey.PreloadApp

namespace TKey

open ByteMemory

/-!
# System reset

`reset.c`: an app asks for a system reset and says what is to be started next.
The request is kept in a record that survives the reset.
-/

/-- The first `count` bytes of a buffer, with zeros behind them. -/
def copyPrefix (count : Nat) (data : Vector UInt8 184) :
    Vector UInt8 184 :=
  Vector.ofFn fun index =>
    if index.val < count then data[index] else 0

/-- Change the record that survives a system reset. -/
def modifyResetinfo (change : Reset → Reset) : Fw Unit :=
  modify fun m => { m with resetinfo := change m.resetinfo }

/-- Fill in the record for the next boot and reset the system. -/
def reset (userreset nextlen : UInt32) : Fw Int :=
  if inAppRam userreset sizeUserReset = false then
    return -1
  else if nextlen.toNat > resetDataSize then
    return -1
  else do
    let bytes ← loadBytes userreset sizeUserReset.toNat
    let request := UserReset.layout.symm (toVector 253 bytes)
    modifyResetinfo fun _ => Reset.zero
    modifyResetinfo fun info => { info with type := request.type }
    modifyResetinfo fun info =>
      { info with appDigest := request.appDigest }
    modifyResetinfo fun info => { info with mask := request.mask }
    let m ← get
    let result :=
      blake2s 32 m.cdi.toList request.measuredIdSeed.toList
    modifyResetinfo fun info =>
      { info with measuredId := toVector 32 (result.getD []) }
    Fw.assert (result.isSome = true)
    modifyResetinfo fun info =>
      { info with
        nextAppData := copyPrefix nextlen.toNat request.nextAppData }
    throw .systemReset

/-- Hand the data of the previous app to the running one. -/
def resetData (nextAppData : UInt32) : Fw Int :=
  if inAppRam nextAppData resetDataSize.toUInt32 = false then
    return -1
  else do
    let m ← get
    storeBytes nextAppData m.resetinfo.nextAppData.toList
    return 0

section Results

/-- The request that an app has put at an address of its RAM. -/
def userRequest (ram : Memory) (userreset : UInt32) : UserReset :=
  UserReset.layout.symm (toVector 253 (read ram userreset.toNat 256))

/-- The id that an app derives from its CDI for the next one. -/
def measuredId
    (cdi seed : Vector UInt8 32) : Vector UInt8 32 :=
  blake2sDigest 32 cdi.toList seed.toList

/-- The record that a request of an app with this CDI leaves behind. -/
def handover
    (cdi : Vector UInt8 32)
    (request : UserReset)
    (nextlen : Nat) : Reset where
  type := request.type
  mask := request.mask
  appDigest := request.appDigest
  measuredId := measuredId cdi request.measuredIdSeed
  nextAppData := copyPrefix nextlen request.nextAppData

/-- The request that `reset` carries out. -/
def AcceptsReset (userreset nextlen : UInt32) : Prop :=
  inAppRam userreset sizeUserReset = true ∧ nextlen.toNat ≤ 184

instance (userreset nextlen : UInt32) :
    Decidable (AcceptsReset userreset nextlen) :=
  inferInstanceAs (Decidable (_ ∧ _))

/-- An accepted request fills in the record and resets the system. -/
theorem reset_run
    (userreset nextlen : UInt32)
    (m : Machine) :
    (reset userreset nextlen).run m =
      if AcceptsReset userreset nextlen then
        .error .systemReset
          { m with
            resetinfo :=
              handover m.cdi (userRequest m.ram userreset)
                nextlen.toNat }
      else
        .ok (-1) m := by
  by_cases inRam : inAppRam userreset sizeUserReset = true
  case neg =>
    rw [reset, if_pos (by simpa using inRam),
      if_neg (fun accepts => inRam accepts.1)]
    rfl
  by_cases short : nextlen.toNat ≤ 184
  case neg =>
    rw [reset, if_neg (by simpa using inRam),
      if_pos (by simpa [resetDataSize] using short),
      if_neg (fun accepts => short accepts.2)]
    rfl
  have hashed (cdi seed : Vector UInt8 32) :
      (blake2s 32 cdi.toList seed.toList).isSome = true := by
    simp [blake2s_eq_some]
  rw [reset, if_neg (by simpa using inRam),
    if_neg (by simpa [resetDataSize] using short),
    if_pos ⟨inRam, short⟩,
    Fw.run_bind_of_ok (loadBytes_run (inRam_of_inAppRam inRam) m)]
  simp only [modifyResetinfo, Fw.run_modify_bind, Fw.run_get_bind]
  rw [Fw.run_assert_bind (hashed _ _), Fw.run_modify_bind]
  rfl

/-- The result of asking for the data of the previous app. -/
theorem resetData_run (nextAppData : UInt32) (m : Machine) :
    (resetData nextAppData).run m =
      if inAppRam nextAppData 184 = true then
        .ok 0
          { m with
            ram :=
              write m.ram nextAppData.toNat
                m.resetinfo.nextAppData.toList }
      else
        .ok (-1) m := by
  have size : resetDataSize.toUInt32 = 184 := rfl
  rw [resetData, size]
  by_cases inRam : inAppRam nextAppData 184 = true
  · have range :
        InRam nextAppData m.resetinfo.nextAppData.toList.length := by
      simpa using inRam_of_inAppRam inRam
    rw [if_neg (by simpa using inRam), if_pos inRam, Fw.run_get_bind,
      Fw.run_bind_of_ok (storeBytes_run range m)]
    rfl
  · rw [if_pos (by simpa using inRam), if_neg inRam]
    rfl

end Results

end TKey
