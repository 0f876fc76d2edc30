import TKey.Proto

namespace TKey

/-!
# The USB mode protocol on the FPGA side

`io.c` reads packets that the USB controller sends over the UART: a mode byte
that names the endpoint, a length byte and the payload.  On top of it
`readcommand` of `proto.c` assembles a frame from the packets of the CDC
endpoint.
-/

section Endpoints

/-- `enum ioend`. -/
def ioNone : UInt8 := 0x00

def ioUart : UInt8 := 0x01

def ioQemu : UInt8 := 0x02

def ioCh552 : UInt8 := 0x04

def ioCdc : UInt8 := 0x08

def ioFido : UInt8 := 0x10

def ioCcid : UInt8 := 0x20

def ioDebug : UInt8 := 0x40

end Endpoints

section Packets

/-- A packet of the USB mode protocol. -/
structure Packet where
  mode : UInt8
  payload : List UInt8
  short : payload.length ≤ 255

/-- The bytes of a packet on the UART. -/
def Packet.wire (packet : Packet) : List UInt8 :=
  packet.mode :: UInt8.ofNat packet.payload.length :: packet.payload

/-- The bytes of packets on the UART. -/
def wire (packets : List Packet) : List UInt8 :=
  packets.flatMap Packet.wire

theorem toNat_ofNat_length (packet : Packet) :
    (UInt8.ofNat packet.payload.length).toNat = packet.payload.length := by
  rw [UInt8.toNat_ofNat', Nat.mod_eq_of_lt]
  exact Nat.lt_succ_of_le packet.short

theorem wire_cons (packet : Packet) (packets : List Packet) :
    wire (packet :: packets) =
      packet.mode :: UInt8.ofNat packet.payload.length ::
        (packet.payload ++ wire packets) := by
  rw [wire, List.flatMap_cons, Packet.wire]
  rfl

theorem length_le_length_wire (packets : List Packet) :
    packets.length ≤ (wire packets).length := by
  induction packets with
  | nil =>
      exact Nat.le_refl 0
  | cons packet packets inductionHypothesis =>
      rw [wire_cons]
      simp only [List.length_cons, List.length_append]
      omega

end Packets

section Definitions

/-- `struct usb_mode`. -/
structure UsbMode where
  /-- Current USB endpoint with data. -/
  endpoint : UInt8
  /-- Data available from the current packet. -/
  len : UInt8
  deriving DecidableEq

/-- The UART as the firmware sees it. -/
structure Uart where
  curEndpoint : UsbMode
  /-- The bytes that will arrive, first one first. -/
  rx : List UInt8
  deriving DecidableEq

/-- Why reading does not go on. -/
inductive IoStop where
  /-- The firmware waits for a byte that never arrives. -/
  | waits
  /-- A failed assertion. -/
  | halt
  deriving Repr, DecidableEq

/-- Code that reads from the UART. -/
abbrev Io := EStateM IoStop Uart

namespace Uart

/-- The UART before anything was read. -/
def initial (rx : List UInt8) : Uart where
  curEndpoint := { endpoint := ioNone, len := 0 }
  rx := rx

/-- Read a byte, blocking. -/
def readbyte : Io UInt8 := fun uart =>
  match uart.rx with
  | [] => .error .waits uart
  | byte :: rest => .ok byte { uart with rx := rest }

/-- Read bytes of the current packet. -/
def readbytes : Nat → Io (List UInt8)
  | 0 => return []
  | count + 1 => do
      let byte ← readbyte
      modify fun uart =>
        { uart with
          curEndpoint :=
            { uart.curEndpoint with len := uart.curEndpoint.len - 1 } }
      let rest ← readbytes count
      return byte :: rest

/-- Read from the current endpoint; `none` stands for `-1`. -/
def read (src : UInt8) (bufsize nbytes : Nat) : Io (Option (List UInt8)) :=
  if nbytes > bufsize then
    return none
  else if src = ioNone ∨ src = ioUart ∨ src = ioQemu then
    return none
  else do
    let uart ← get
    if src ≠ uart.curEndpoint.endpoint then
      return some []
    else do
      let bytes ← readbytes nbytes
      return some bytes

/-- Discard bytes of the current packet; returns how many. -/
def discard (nbytes : Nat) : Io Nat := do
  let uart ← get
  let len := min nbytes uart.curEndpoint.len.toNat
  let _ ← readbytes len
  return len

/-- Read the header of the next packet when the current one is used up. -/
def nextPacket : Io Unit := do
  let uart ← get
  if uart.curEndpoint.len = 0 then do
    let endpoint ← readbyte
    modify fun uart =>
      { uart with curEndpoint := { uart.curEndpoint with endpoint := endpoint } }
    let len ← readbyte
    modify fun uart =>
      { uart with curEndpoint := { uart.curEndpoint with len := len } }

/--
The loop of `readselect`.  A packet that is not asked for is discarded, which
uses up bytes, so the first argument, the number of rounds, does not run out.
-/
def readselectLoop (bitmask : UInt8) : Nat → Io UInt8
  | 0 => throw .waits
  | rounds + 1 => do
      nextPacket
      let uart ← get
      if uart.curEndpoint.endpoint &&& bitmask ≠ 0 then
        return uart.curEndpoint.len
      else do
        let discarded ← discard uart.curEndpoint.len.toNat
        if discarded ≠ uart.curEndpoint.len.toNat then
          throw .halt
        else
          readselectLoop bitmask rounds

/--
Wait for data from an endpoint of a bitmask and return how much there is; `none`
stands for `-1`.
-/
def readselect (bitmask : UInt8) : Io (Option UInt8) :=
  if bitmask &&& ioUart ≠ 0 ∨ bitmask &&& ioQemu ≠ 0 then
    return none
  else do
    let uart ← get
    let len ← readselectLoop bitmask (uart.rx.length + 2)
    return some len

/--
A round of the loop of `readcommand`, which has read some bytes of a payload of
`len` bytes.
-/
def readround (len : Nat) (cmd : List UInt8) :
    Io (Option (List UInt8)) := do
  let selected ← readselect ioCdc
  match selected with
  | none => return none
  | some available =>
      if ¬ cmd.length < cmdsize then
        throw .halt
      else do
        -- Read as much as is available of what we expect from
        -- the frame.
        let bytes ←
          read ioCdc (cmdsize - cmd.length)
            (if available.toNat > len then len else available.toNat)
        return bytes.map (cmd ++ ·)

/--
The loop of `readcommand`.  A round gets closer to the end of the payload or
uses up bytes of the UART, or else all later rounds are like it, so the rounds
only run out when the loop spins forever.
-/
def readpayload (len : Nat) :
    Nat → List UInt8 → Io (Option (List UInt8))
  | 0, cmd =>
      if cmd.length < len then throw .waits else return some cmd
  | rounds + 1, cmd =>
      if cmd.length < len then do
        let more ← readround len cmd
        match more with
        | none => return none
        | some cmd => readpayload len rounds cmd
      else
        return some cmd

/-- Read a frame that is meant for the firmware; `none` stands for `-1`. -/
def readcommand : Io (Option (FrameHeader × Vector UInt8 128)) := do
  let selected ← readselect ioCdc
  match selected with
  | none => return none
  | some _ => do
      let first ← read ioCdc 1 1
      match first with
      | none => return none
      | some first =>
          match parseframe (first.headD 0) with
          | none => return none
          | some hdr => do
              let uart ← get
              let payload ←
                readpayload hdr.len (hdr.len + uart.rx.length + 1) []
              match payload with
              | none => return none
              | some cmd =>
                  if hdr.endpoint ≠ dstFw then
                    return none
                  else
                    return some (hdr, ByteMemory.toVector 128 cmd)

end Uart

end Definitions

section Runs

/-- A first step that returns is followed by the rest. -/
theorem Io.run_bind_of_ok
    {α β : Type}
    {first : Io α}
    {uart uart' : Uart}
    {value : α}
    (returns : first.run uart = .ok value uart')
    (next : α → Io β) :
    (first >>= next).run uart = (next value).run uart' := by
  rw [EStateM.run_bind, returns]

/-- A run that returns goes through a first step that returns. -/
theorem Io.run_bind_inv
    {α β : Type}
    {first : Io α}
    {next : α → Io β}
    {uart uart' : Uart}
    {value : β}
    (returns : (first >>= next).run uart = .ok value uart') :
    ∃ middle current,
      first.run uart = .ok middle current ∧
        (next middle).run current = .ok value uart' := by
  rw [EStateM.run_bind] at returns
  cases ran : first.run uart with
  | ok middle current =>
      rw [ran] at returns
      exact ⟨middle, current, rfl, returns⟩
  | error stop current =>
      rw [ran] at returns
      cases returns

theorem Io.run_modify_bind
    {β : Type}
    (change : Uart → Uart)
    (next : PUnit → Io β)
    (uart : Uart) :
    ((modify change : Io PUnit) >>= next).run uart =
      (next ⟨⟩).run (change uart) :=
  rfl

theorem Io.run_get_bind
    {β : Type}
    (next : Uart → Io β)
    (uart : Uart) :
    ((get : Io Uart) >>= next).run uart = (next uart).run uart :=
  rfl

namespace Uart

/-- The UART after bytes of the current packet were read. -/
def took (uart : Uart) (count : Nat) (rest : List UInt8) : Uart where
  curEndpoint :=
    { uart.curEndpoint with
      len := uart.curEndpoint.len - UInt8.ofNat count }
  rx := rest

theorem readbyte_run
    {uart : Uart}
    {byte : UInt8}
    {rest : List UInt8}
    (rx : uart.rx = byte :: rest) :
    readbyte.run uart = .ok byte { uart with rx := rest } := by
  obtain ⟨curEndpoint, _⟩ := uart
  cases rx
  rfl

theorem took_took
    (uart : Uart)
    (rest rest' : List UInt8)
    (count : Nat) :
    (uart.took 1 rest).took count rest' = uart.took (count + 1) rest' := by
  have len :
      uart.curEndpoint.len - 1 - UInt8.ofNat count =
        uart.curEndpoint.len - UInt8.ofNat (count + 1) := by
    rw [UInt8.ofNat_add]
    grind
  rw [took, took, took, ← len]
  rfl

theorem readbytes_run
    {uart : Uart}
    {bytes rest : List UInt8}
    (rx : uart.rx = bytes ++ rest) :
    (readbytes bytes.length).run uart =
      .ok bytes (uart.took bytes.length rest) := by
  induction bytes generalizing uart with
  | nil =>
      obtain ⟨curEndpoint, _⟩ := uart
      cases rx
      rw [took, List.length_nil]
      have unchanged :
          curEndpoint.len - UInt8.ofNat 0 = curEndpoint.len :=
        UInt8.sub_zero _
      rw [unchanged]
      rfl
  | cons byte bytes inductionHypothesis =>
      have reads :=
        inductionHypothesis (@rfl _ _ : (uart.took 1 (bytes ++ rest)).rx = bytes ++ rest)
      rw [took_took] at reads
      rw [List.length_cons, readbytes,
        Io.run_bind_of_ok (readbyte_run rx), Io.run_modify_bind]
      exact Io.run_bind_of_ok reads _

/-- Data of the current endpoint is taken from the current packet. -/
theorem read_cdc_run
    {uart : Uart}
    {bytes rest : List UInt8}
    {bufsize : Nat}
    (fits : bytes.length ≤ bufsize)
    (current : uart.curEndpoint.endpoint = ioCdc)
    (rx : uart.rx = bytes ++ rest) :
    (read ioCdc bufsize bytes.length).run uart =
      .ok (some bytes) (uart.took bytes.length rest) := by
  have readable : ¬ (ioCdc = ioNone ∨ ioCdc = ioUart ∨ ioCdc = ioQemu) := by
    decide
  have same : ¬ ioCdc ≠ uart.curEndpoint.endpoint :=
    not_not_intro current.symm
  rw [read, if_neg (Nat.not_lt.mpr fits), if_neg readable,
    Io.run_get_bind, if_neg same, Io.run_bind_of_ok (readbytes_run rx)]
  rfl

theorem read_too_long_run
    {bufsize nbytes : Nat}
    (src : UInt8)
    (tooLong : bufsize < nbytes)
    (uart : Uart) :
    (read src bufsize nbytes).run uart = .ok none uart := by
  rw [read, if_pos tooLong]
  rfl

/-- A packet that still has data is not left for the next one. -/
theorem nextPacket_run_of_ne_zero
    {uart : Uart}
    (more : uart.curEndpoint.len ≠ 0) :
    nextPacket.run uart = .ok () uart := by
  rw [nextPacket, Io.run_get_bind, if_neg more]
  rfl

theorem nextPacket_run
    {uart : Uart}
    {endpoint len : UInt8}
    {rest : List UInt8}
    (usedUp : uart.curEndpoint.len = 0)
    (rx : uart.rx = endpoint :: len :: rest) :
    nextPacket.run uart =
      .ok () { curEndpoint := { endpoint := endpoint, len := len }, rx := rest } := by
  obtain ⟨curEndpoint, _⟩ := uart
  cases rx
  rw [nextPacket, Io.run_get_bind, if_pos usedUp]
  rfl

/-- A selected endpoint ends the loop. -/
theorem readselectLoop_run_selected
    {uart uart' : Uart}
    {bitmask : UInt8}
    (next : nextPacket.run uart = .ok () uart')
    (selected : uart'.curEndpoint.endpoint &&& bitmask ≠ 0)
    (rounds : Nat) :
    (readselectLoop bitmask (rounds + 1)).run uart =
      .ok uart'.curEndpoint.len uart' := by
  rw [readselectLoop, Io.run_bind_of_ok next, Io.run_get_bind,
    if_pos selected]
  rfl

/-- A packet of another endpoint is discarded. -/
theorem readselectLoop_run_discarded
    {uart uart' : Uart}
    {bitmask : UInt8}
    {payload rest : List UInt8}
    (next : nextPacket.run uart = .ok () uart')
    (other : uart'.curEndpoint.endpoint &&& bitmask = 0)
    (len : uart'.curEndpoint.len.toNat = payload.length)
    (rx : uart'.rx = payload ++ rest)
    (rounds : Nat) :
    (readselectLoop bitmask (rounds + 1)).run uart =
      (readselectLoop bitmask rounds).run
        (uart'.took payload.length rest) := by
  have discards :
      (discard payload.length).run uart' =
        .ok payload.length (uart'.took payload.length rest) := by
    rw [discard, Io.run_get_bind, len, Nat.min_self]
    exact Io.run_bind_of_ok (readbytes_run rx) _
  rw [readselectLoop, Io.run_bind_of_ok next, Io.run_get_bind,
    if_neg (not_not_intro other), len, Io.run_bind_of_ok discards,
    if_neg (not_not_intro rfl)]

/-- An endpoint of the USB controller is waited for in a loop. -/
theorem readselect_cdc_run
    {uart uart' : Uart}
    {len : UInt8}
    (loops :
      (readselectLoop ioCdc (uart.rx.length + 2)).run uart =
        .ok len uart') :
    (readselect ioCdc).run uart = .ok (some len) uart' := by
  have physical :
      ¬ (ioCdc &&& ioUart ≠ 0 ∨ ioCdc &&& ioQemu ≠ 0) := by
    decide
  rw [readselect, if_neg physical, Io.run_get_bind,
    Io.run_bind_of_ok loops]
  rfl

/-- What a round asks for, from what the packet has. -/
theorem readround_asks (available : UInt8) (len : Nat) :
    (if available.toNat > len then len else available.toNat) =
      min available.toNat len := by
  rw [Nat.min_def]
  split <;> split <;> omega

theorem readround_run
    {len : Nat}
    {cmd : List UInt8}
    {bytes : Option (List UInt8)}
    {available : UInt8}
    {uart selected uart' : Uart}
    (room : cmd.length < cmdsize)
    (selects :
      (readselect ioCdc).run uart = .ok (some available) selected)
    (reads :
      (read ioCdc (cmdsize - cmd.length)
            (min available.toNat len)).run selected =
        .ok bytes uart') :
    (readround len cmd).run uart =
      .ok (bytes.map (cmd ++ ·)) uart' := by
  rw [readround, Io.run_bind_of_ok selects]
  simp only [readround_asks, if_neg (not_not_intro room)]
  exact Io.run_bind_of_ok reads _

theorem readpayload_run_done
    {len : Nat}
    {cmd : List UInt8}
    (done : len ≤ cmd.length)
    (rounds : Nat)
    (uart : Uart) :
    (readpayload len rounds cmd).run uart = .ok (some cmd) uart := by
  cases rounds with
  | zero =>
      rw [readpayload, if_neg (Nat.not_lt.mpr done)]
      rfl
  | succ rounds =>
      rw [readpayload, if_neg (Nat.not_lt.mpr done)]
      rfl

theorem readpayload_run_spins
    {len : Nat}
    {cmd : List UInt8}
    (more : cmd.length < len)
    (uart : Uart) :
    (readpayload len 0 cmd).run uart = .error .waits uart := by
  rw [readpayload, if_pos more]
  rfl

theorem readpayload_run_some
    {len : Nat}
    {cmd cmd' : List UInt8}
    {uart uart' : Uart}
    (more : cmd.length < len)
    (reads : (readround len cmd).run uart = .ok (some cmd') uart')
    (rounds : Nat) :
    (readpayload len (rounds + 1) cmd).run uart =
      (readpayload len rounds cmd').run uart' := by
  rw [readpayload, if_pos more, Io.run_bind_of_ok reads]

theorem readpayload_run_none
    {len : Nat}
    {cmd : List UInt8}
    {uart uart' : Uart}
    (more : cmd.length < len)
    (fails : (readround len cmd).run uart = .ok none uart')
    (rounds : Nat) :
    (readpayload len (rounds + 1) cmd).run uart = .ok none uart' := by
  rw [readpayload, if_pos more, Io.run_bind_of_ok fails]
  rfl

end Uart

end Runs

end TKey
