import TKey.MeasuredStart

namespace TKey

open ByteMemory

/-!
# CDI domain separation

What is hashed to the CDI of an app starts with a byte of flags, followed by an
identity of fixed length and an optional USS, so that it can be taken apart
again.  Different ways to start an app therefore lead to different CDIs, as far
as the hash has no collision.
-/

/-- The bytes that the CDI of a launched app is the keyed hash of. -/
def Launch.cdiInput (launch : Launch) : List UInt8 :=
  cdiMessage
    (domainByte (launch.ctx.givenUss.isSome = true)
      launch.requested.Seeded)
    (startIdentity launch.requested launch.ctx)
    launch.ctx.givenUss

/-- Two launches of apps that are to have the same CDI. -/
structure SameKeySpace (left right : Launch) : Prop where
  useUss : left.ctx.useUss = right.ctx.useUss
  seeded : left.requested.Seeded ↔ right.requested.Seeded
  identity :
    startIdentity left.requested left.ctx =
      startIdentity right.requested right.ctx
  uss : left.ctx.useUss = true → left.ctx.uss = right.ctx.uss

/-- The flags can be read off the domain byte. -/
theorem domainByte_inj
    {withUss seeded withUss' seeded' : Prop}
    [Decidable withUss]
    [Decidable seeded]
    [Decidable withUss']
    [Decidable seeded']
    (same : domainByte withUss seeded = domainByte withUss' seeded') :
    (withUss ↔ withUss') ∧ (seeded ↔ seeded') := by
  have apart :
      ∀ first second first' second' : Bool,
        domainByte (first = true) (second = true) =
          domainByte (first' = true) (second' = true) →
        first = first' ∧ second = second' := by
    decide
  have flags := apart (decide withUss) (decide seeded) (decide withUss')
    (decide seeded') (by simpa only [domainByte, decide_eq_true_eq])
  exact ⟨decide_eq_decide.mp flags.1, decide_eq_decide.mp flags.2⟩

/-- The parts of the hashed message can be told apart. -/
theorem cdiMessage_inj
    {domain domain' : UInt8}
    {identity identity' : Vector UInt8 32}
    {uss uss' : Option (Vector UInt8 32)}
    (same :
      cdiMessage domain identity uss = cdiMessage domain' identity' uss') :
    domain = domain' ∧ identity = identity' ∧ uss = uss' := by
  simp only [cdiMessage, List.cons_append, List.nil_append,
    List.cons.injEq] at same
  obtain ⟨sameDomain, rest⟩ := same
  have sameLength :
      identity.toList.length = identity'.toList.length := by
    simp
  obtain ⟨sameIdentity, sameUss⟩ := List.append_inj rest sameLength
  refine ⟨sameDomain, Vector.toList_inj.mp sameIdentity, ?_⟩
  cases uss with
  | none =>
      cases uss' with
      | none =>
          rfl
      | some secret' =>
          have empty := congrArg List.length sameUss
          simp at empty
  | some secret =>
      cases uss' with
      | none =>
          have empty := congrArg List.length sameUss
          simp at empty
      | some secret' =>
          exact congrArg some (Vector.toList_inj.mp sameUss)

/-- A context is given the USS that it uses. -/
theorem givenUss_eq_iff (left right : Context) :
    left.givenUss = right.givenUss ↔
      left.useUss = right.useUss ∧
        (left.useUss = true → left.uss = right.uss) := by
  rw [Context.givenUss, Context.givenUss]
  cases left.useUss <;> cases right.useUss <;> simp

/-- What is hashed is the same exactly when the inputs of the CDI are. -/
theorem cdiInput_eq_iff (left right : Launch) :
    left.cdiInput = right.cdiInput ↔ SameKeySpace left right := by
  constructor
  · intro same
    obtain ⟨domain, identity, given⟩ := cdiMessage_inj same
    obtain ⟨useUss, uss⟩ := (givenUss_eq_iff _ _).mp given
    exact
      { useUss := useUss
        seeded := (domainByte_inj domain).2
        identity := identity
        uss := uss }
  · intro same
    have given :=
      (givenUss_eq_iff left.ctx right.ctx).mpr ⟨same.useUss, same.uss⟩
    have domain :
        domainByte (left.ctx.givenUss.isSome = true)
            left.requested.Seeded =
          domainByte (right.ctx.givenUss.isSome = true)
            right.requested.Seeded := by
      rw [given]
      simp only [domainByte, same.seeded]
    rw [Launch.cdiInput, Launch.cdiInput, domain, same.identity, given]

/-- A running app has the CDI that it was launched with. -/
theorem cdi_running
    {device : Device}
    {chip : FlashChip}
    {scrambled : Memory}
    {info : Reset}
    {events : List Event}
    {launch : Launch}
    {m : Machine}
    (isRunning :
      System.fromBoot device chip scrambled info events =
        .running launch m) :
    m.cdi = blake2sDigest 32 device.uds.toList launch.cdiInput := by
  have sound := sound_fromBoot device chip scrambled info events
  rw [isRunning] at sound
  cases sound with
  | running launched runsOn =>
      rw [runsOn.cdi, launched.cdi_eq]
      rfl

/--
CDI domain separation: for two apps that were started by any two runs of the
same device, as far as the keyed hash has no collision between them, the CDIs
are equal if and only if the starts agree on whether a USS is used, on whether
the reset mask has the seed bit, on the identity and, if one is used, on the
USS.
-/
theorem cdi_separation
    {device : Device}
    {chip chip' : FlashChip}
    {scrambled scrambled' : Memory}
    {info info' : Reset}
    {events events' : List Event}
    {left right : Launch}
    {m m' : Machine}
    (leftRuns :
      System.fromBoot device chip scrambled info events =
        .running left m)
    (rightRuns :
      System.fromBoot device chip' scrambled' info' events' =
        .running right m')
    (collisionFree :
      Set.InjOn (blake2sDigest 32 device.uds.toList)
        {left.cdiInput, right.cdiInput}) :
    m.cdi = m'.cdi ↔ SameKeySpace left right := by
  have isLeft : left.cdiInput ∈ ({left.cdiInput, right.cdiInput} : Set _) :=
    Set.mem_insert _ _
  have isRight :
      right.cdiInput ∈ ({left.cdiInput, right.cdiInput} : Set _) :=
    Set.mem_insert_of_mem _ (Set.mem_singleton _)
  rw [cdi_running leftRuns, cdi_running rightRuns,
    collisionFree.eq_iff isLeft isRight]
  exact cdiInput_eq_iff left right

/-- A record that asks for the measured id. -/
def Reset.seeded : Reset :=
  { Reset.zero with mask := resetSeed }

/-- What the CDI of the sample app is made of. -/
theorem cdiInput_managed (scrambled : Memory) (info : Reset) :
    (Launch.managed scrambled info).cdiInput =
      cdiMessage (domainByte False info.Seeded)
        (if info.Seeded then info.measuredId
          else blake2sDigest 32 [] [0xFF])
        none := by
  have digest := measured_withApp 0 scrambled info
  rw [← digest]
  rfl

theorem cdi_separation_sample :
    (Launch.managed (fun _ => 0) .zero).machine.cdi =
        (Launch.managed (fun _ => 0) .seeded).machine.cdi ↔
      SameKeySpace (.managed (fun _ => 0) .zero)
        (.managed (fun _ => 0) .seeded) := by
  have different :
      blake2sDigest 32 Device.managed.uds.toList
          (Launch.managed (fun _ => 0) .zero).cdiInput ≠
        blake2sDigest 32 Device.managed.uds.toList
          (Launch.managed (fun _ => 0) .seeded).cdiInput := by
    rw [cdiInput_managed, cdiInput_managed]
    decide +kernel
  have collisionFree :
      Set.InjOn (blake2sDigest 32 Device.managed.uds.toList)
        {(Launch.managed (fun _ => 0) .zero).cdiInput,
          (Launch.managed (fun _ => 0) .seeded).cdiInput} := by
    rw [Set.injOn_pair]
    exact fun same => absurd same different
  exact
    cdi_separation (run_managed (fun _ => 0) .zero rfl)
      (run_managed (fun _ => 0) .seeded rfl) collisionFree

end TKey
