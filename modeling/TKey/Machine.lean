import TKey.FlashChip
import TKey.Layout

namespace TKey

open ByteMemory

/-!
# Machine state

The state that the firmware works on: the flash chip behind the SPI bus, app
RAM, the firmware's own variables in `FW_RAM`, the part of `FW_RAM` that
survives a system reset, and the registers of the TK1 core.  Firmware
functions are programs over this state.  A program can end the run: a failed
assertion executes an illegal instruction, an access through a pointer outside
app RAM has no meaning in this model, and the system reset register restarts
the CPU.
-/

/-- Values that are fixed for one device and one firmware build. -/
structure Device where
  uds : Vector UInt8 32
  udi : Vector UInt32 2
  name0 : UInt32
  name1 : UInt32
  version : UInt32
  /-- `allowed_app_digest`, generated by the build. -/
  allowedAppDigest : Vector UInt8 32

/-- The first word of the UDI, with the vendor and the product. -/
def Device.vidpid (device : Device) : UInt32 :=
  device.udi[0]

/-- Everything that firmware, apps and resets can change. -/
structure Machine where
  flash : FlashChip
  /-- App RAM, by absolute address. -/
  ram : Memory
  partTableStorage : PartitionTableStorage
  /-- `part_status`: zero or `PART_SLOT0_INVALID`. -/
  partStatus : UInt32
  currentAppDigest : Vector UInt8 32
  resetinfo : Reset
  /-- The CDI register, as bytes. -/
  cdi : Vector UInt8 32
  appSize : UInt32
  appAddr : UInt32
  /-- Frames written to the CDC endpoint. -/
  replies : List (List UInt8)

/-- Why the firmware does not continue. -/
inductive Stop where
  /-- A failed assertion or another illegal instruction. -/
  | halt
  /-- An access through a pointer outside app RAM. -/
  | fault
  /-- A write to the system reset register. -/
  | systemReset
  deriving Repr, DecidableEq

/-- Firmware code: returns a value or stops, and changes the machine. -/
abbrev Fw := EStateM Stop Machine

namespace Fw

/-- The C macro `assert`. -/
def assert (condition : Prop) [Decidable condition] : Fw Unit :=
  if condition then pure () else throw .halt

/-- A first step that returns hands its value and machine to the rest. -/
theorem run_bind_of_ok
    {α β : Type}
    {first : Fw α}
    {m m' : Machine}
    {value : α}
    (returns : first.run m = .ok value m')
    (next : α → Fw β) :
    (first >>= next).run m = (next value).run m' := by
  rw [EStateM.run_bind, returns]

/-- A first step that stops ends the run. -/
theorem run_bind_of_error
    {α β : Type}
    {first : Fw α}
    {m m' : Machine}
    {stop : Stop}
    (stops : first.run m = .error stop m')
    (next : α → Fw β) :
    (first >>= next).run m = .error stop m' := by
  rw [EStateM.run_bind, stops]

/-- Changing the machine hands the changed machine to the rest. -/
@[simp] theorem run_modify_bind
    {β : Type}
    (change : Machine → Machine)
    (next : PUnit → Fw β)
    (m : Machine) :
    ((modify change : Fw PUnit) >>= next).run m =
      (next ⟨⟩).run (change m) :=
  rfl

/-- Looking at the machine leaves it as it is. -/
@[simp] theorem run_get_bind
    {β : Type}
    (next : Machine → Fw β)
    (m : Machine) :
    ((get : Fw Machine) >>= next).run m = (next m).run m :=
  rfl

theorem run_ite
    {α : Type}
    (condition : Prop)
    [Decidable condition]
    (yes no : Fw α)
    (m : Machine) :
    (if condition then yes else no).run m =
      if condition then yes.run m else no.run m :=
  apply_ite (fun program : Fw α => program.run m) condition yes no

/-- An assertion that holds does nothing. -/
@[simp] theorem run_assert_bind
    {β : Type}
    {condition : Prop}
    [Decidable condition]
    (holds : condition)
    (next : Unit → Fw β)
    (m : Machine) :
    (assert condition >>= next).run m = (next ()).run m := by
  rw [assert, if_pos holds]
  rfl

@[simp] theorem run_assert
    {condition : Prop}
    [Decidable condition]
    (holds : condition)
    (m : Machine) :
    (assert condition).run m = .ok () m := by
  rw [assert, if_pos holds]
  rfl

end Fw

/-- The `size` bytes at pointer `p` lie in app RAM. -/
def InRam (p : UInt32) (size : Nat) : Prop :=
  ramBase.toNat ≤ p.toNat ∧
    p.toNat + size ≤ ramBase.toNat + ramSize.toNat

instance (p : UInt32) (size : Nat) : Decidable (InRam p size) :=
  inferInstanceAs (Decidable (_ ∧ _))

/-- Read `size` bytes through a pointer into app RAM. -/
def loadBytes (p : UInt32) (size : Nat) : Fw (List UInt8) := fun m =>
  if InRam p size then
    .ok (read m.ram p.toNat size) m
  else
    .error .fault m

/-- Write bytes through a pointer into app RAM. -/
def storeBytes (p : UInt32) (data : List UInt8) : Fw Unit := fun m =>
  if InRam p data.length then
    .ok () { m with ram := write m.ram p.toNat data }
  else
    .error .fault m

end TKey
