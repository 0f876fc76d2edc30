import TKey.PartitionTable

namespace TKey

open ByteMemory

/-!
# Access checks

The three checks that system calls make before they act: `memcheck.c` checks
pointers, `auth_app.c` checks the owner of a storage area against the CDI, and
`mgmt_app.c` checks whether the running app is the management app.
-/

section MemCheck

/-- Check if an object at pointer `p` of the given size is in app RAM. -/
def inAppRam (p size : UInt32) : Bool :=
  let stop := ramBase + ramSize
  if p < ramBase then
    false
  else if p ≥ stop then
    false
  else
    let left := stop - p
    if size > left then
      false
    else
      true

/-- The pointer check accepts exactly the ranges that lie in app RAM. -/
theorem inAppRam_iff (p size : UInt32) :
    inAppRam p size = true ↔
      InRam p size.toNat ∧
        p.toNat < ramBase.toNat + ramSize.toNat := by
  have base : ramBase.toNat = 0x40000000 := rfl
  have length : ramSize.toNat = 0x20000 := rfl
  have stop : (ramBase + ramSize).toNat = 0x40020000 := rfl
  simp only [inAppRam, InRam, UInt32.lt_iff_toNat_lt, ge_iff_le,
    UInt32.le_iff_toNat_le, gt_iff_lt, base, length, stop]
  by_cases low : p.toNat < 0x40000000
  · simp [low]
  · by_cases high : 0x40020000 ≤ p.toNat
    · simp [low, high]
    · have left :
          (ramBase + ramSize - p).toNat = 0x40020000 - p.toNat := by
        rw [UInt32.toNat_sub_of_le _ _
          (UInt32.le_iff_toNat_le.mpr (by omega)), stop]
      simp only [low, high, if_false, left]
      split <;> simp <;> omega

/-- An accepted pointer may be used for the checked number of bytes. -/
theorem inRam_of_inAppRam
    {p size : UInt32}
    (accepted : inAppRam p size = true) :
    InRam p size.toNat :=
  ((inAppRam_iff p size).mp accepted).1

/-- Loading through an accepted pointer returns the bytes of app RAM. -/
theorem loadBytes_run
    {p : UInt32}
    {size : Nat}
    (inRam : InRam p size)
    (m : Machine) :
    (loadBytes p size).run m = .ok (read m.ram p.toNat size) m := by
  simp [loadBytes, EStateM.run, inRam]

/-- Storing through an accepted pointer overwrites bytes of app RAM. -/
theorem storeBytes_run
    {p : UInt32}
    {data : List UInt8}
    (inRam : InRam p data.length)
    (m : Machine) :
    (storeBytes p data).run m =
      .ok () { m with ram := write m.ram p.toNat data } := by
  simp [storeBytes, EStateM.run, inRam]

end MemCheck

section AuthApp

/--
The authentication digest based on a nonce and the CDI: a 16-byte hash of the
CDI register followed by the nonce.
-/
def calculateAuthDigest
    (nonce : Vector UInt8 16) : Fw (Vector UInt8 16) :=
  match blake2sInit 16 [] with
  | none => throw .halt
  | some ctx => do
      let m ← get
      let ctx := blake2sUpdate ctx m.cdi.toList
      let ctx := blake2sUpdate ctx nonce.toList
      return toVector 16 (blake2sFinal ctx)

/-- A 16 byte nonce from the four words that the TRNG delivers. -/
def generateNonce (words : Vector UInt32 4) : Vector UInt8 16 :=
  PackedLayout.word.array 4 words

/-- The authentication digest and nonce for a new area. -/
def authAppCreate (words : Vector UInt32 4) : Fw AuthMetadata := do
  let nonce := generateNonce words
  let authDigest ← calculateAuthDigest nonce
  return { nonce := nonce, authenticationDigest := authDigest }

def authAppAuthenticate (authTable : AuthMetadata) : Fw Bool := do
  let authDigest ← calculateAuthDigest authTable.nonce
  return authDigest = authTable.authenticationDigest

/-- The value of the authentication digest. -/
def authDigest
    (cdi : Vector UInt8 32)
    (nonce : Vector UInt8 16) : Vector UInt8 16 :=
  blake2sDigest 16 [] (cdi.toList ++ nonce.toList)

/-- The metadata authenticates an app with the given CDI. -/
def AuthMetadata.Authenticates
    (auth : AuthMetadata)
    (cdi : Vector UInt8 32) : Prop :=
  authDigest cdi auth.nonce = auth.authenticationDigest

instance (auth : AuthMetadata) (cdi : Vector UInt8 32) :
    Decidable (auth.Authenticates cdi) :=
  inferInstanceAs (Decidable (_ = _))

theorem calculateAuthDigest_run
    (nonce : Vector UInt8 16)
    (m : Machine) :
    (calculateAuthDigest nonce).run m =
      .ok (authDigest m.cdi nonce) m := by
  obtain ⟨ctx, initialized⟩ : ∃ ctx, blake2sInit 16 [] = some ctx :=
    ⟨_, rfl⟩
  have digest :
      authDigest m.cdi nonce =
        toVector 16
          (blake2sFinal
            (blake2sUpdate (blake2sUpdate ctx m.cdi.toList)
              nonce.toList)) := by
    simp [authDigest, blake2sDigest, blake2s, initialized,
      blake2sUpdate_append]
  rw [digest, calculateAuthDigest, initialized]
  rfl

/-- The metadata that a new area gets. -/
def createdAuth
    (cdi : Vector UInt8 32)
    (words : Vector UInt32 4) : AuthMetadata where
  nonce := generateNonce words
  authenticationDigest := authDigest cdi (generateNonce words)

theorem authAppCreate_run
    (words : Vector UInt32 4)
    (m : Machine) :
    (authAppCreate words).run m = .ok (createdAuth m.cdi words) m := by
  rw [authAppCreate, Fw.run_bind_of_ok (calculateAuthDigest_run _ m)]
  rfl

theorem authAppAuthenticate_run
    (auth : AuthMetadata)
    (m : Machine) :
    (authAppAuthenticate auth).run m =
      .ok (decide (auth.Authenticates m.cdi)) m := by
  rw [authAppAuthenticate,
    Fw.run_bind_of_ok (calculateAuthDigest_run _ m)]
  rfl

end AuthApp

section MgmtApp

/-- Remember the digest of a prospective management app. -/
def mgmtAppInit (appDigest : Vector UInt8 32) : Fw Int := do
  modify fun m => { m with currentAppDigest := appDigest }
  return 0

/-- Authenticate a management app. -/
def mgmtAppAuthenticate (device : Device) : Fw Bool := do
  let m ← get
  return m.currentAppDigest = device.allowedAppDigest

/-- The digest that the management app must have. -/
def mgmtAppAllowedDigest (device : Device) : Vector UInt8 32 :=
  device.allowedAppDigest

/-- The running app is accepted as the management app. -/
def Machine.IsMgmt (device : Device) (m : Machine) : Prop :=
  m.currentAppDigest = device.allowedAppDigest

instance (device : Device) (m : Machine) :
    Decidable (m.IsMgmt device) :=
  inferInstanceAs (Decidable (_ = _))

theorem mgmtAppAuthenticate_run (device : Device) (m : Machine) :
    (mgmtAppAuthenticate device).run m =
      .ok (decide (m.IsMgmt device)) m :=
  rfl

end MgmtApp

end TKey
