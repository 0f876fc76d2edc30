import TKey.UsbMode
import TKey.FrameStream

namespace TKey

open ByteMemory

/-!
# The counter of the current packet

How `io.c` and `readcommand` take the bytes of the UART: as the mode of a
packet, as its length or as payload.  The functions of this module are those of
`UsbMode` with a record of every byte that is taken.
-/

section Definitions

/-- As what a byte of the UART is taken. -/
inductive Role where
  | mode
  | length
  | payload
  deriving Repr, DecidableEq

/-- A byte was taken; `len` is the counter of the current packet afterwards. -/
structure Point where
  role : Role
  len : Nat
  deriving Repr, DecidableEq

/-- The UART, and what was taken from it so far. -/
structure Tap where
  uart : Uart
  points : List Point
  deriving DecidableEq

/-- Code that reads from the UART on the record. -/
abbrev TapIo := EStateM IoStop Tap

namespace Tap

/-- Nothing was taken yet. -/
def initial (rx : List UInt8) : Tap where
  uart := .initial rx
  points := []

/-- Take a byte, blocking, and note it in the current packet. -/
def take (role : Role) (note : UInt8 → UsbMode → UsbMode) : TapIo UInt8 :=
  fun tap =>
    match tap.uart.rx with
    | [] => .error .waits tap
    | byte :: rest =>
        let current := note byte tap.uart.curEndpoint
        .ok byte
          { uart := { curEndpoint := current, rx := rest }
            points := tap.points ++ [{ role := role, len := current.len.toNat }] }

/-- Read bytes of the current packet. -/
def readbytes : Nat → TapIo (List UInt8)
  | 0 => return []
  | count + 1 => do
      let byte ← take .payload fun _ current =>
        { current with len := current.len - 1 }
      let rest ← readbytes count
      return byte :: rest

def read (src : UInt8) (bufsize nbytes : Nat) :
    TapIo (Option (List UInt8)) :=
  if nbytes > bufsize then
    return none
  else if src = ioNone ∨ src = ioUart ∨ src = ioQemu then
    return none
  else do
    let tap ← get
    if src ≠ tap.uart.curEndpoint.endpoint then
      return some []
    else do
      let bytes ← readbytes nbytes
      return some bytes

def discard (nbytes : Nat) : TapIo Nat := do
  let tap ← get
  let len := min nbytes tap.uart.curEndpoint.len.toNat
  let _ ← readbytes len
  return len

def nextPacket : TapIo Unit := do
  let tap ← get
  if tap.uart.curEndpoint.len = 0 then do
    let _ ← take .mode fun endpoint current =>
      { current with endpoint := endpoint }
    let _ ← take .length fun len current => { current with len := len }

def readselectLoop (bitmask : UInt8) : Nat → TapIo UInt8
  | 0 => throw .waits
  | rounds + 1 => do
      nextPacket
      let tap ← get
      if tap.uart.curEndpoint.endpoint &&& bitmask ≠ 0 then
        return tap.uart.curEndpoint.len
      else do
        let discarded ← discard tap.uart.curEndpoint.len.toNat
        if discarded ≠ tap.uart.curEndpoint.len.toNat then
          throw .halt
        else
          readselectLoop bitmask rounds

def readselect (bitmask : UInt8) : TapIo (Option UInt8) :=
  if bitmask &&& ioUart ≠ 0 ∨ bitmask &&& ioQemu ≠ 0 then
    return none
  else do
    let tap ← get
    let len ← readselectLoop bitmask (tap.uart.rx.length + 2)
    return some len

def readround (len : Nat) (cmd : List UInt8) :
    TapIo (Option (List UInt8)) := do
  let selected ← readselect ioCdc
  match selected with
  | none => return none
  | some available =>
      if ¬ cmd.length < cmdsize then
        throw .halt
      else do
        let bytes ←
          read ioCdc (cmdsize - cmd.length)
            (if available.toNat > len then len else available.toNat)
        return bytes.map (cmd ++ ·)

def readpayload (len : Nat) :
    Nat → List UInt8 → TapIo (Option (List UInt8))
  | 0, cmd =>
      if cmd.length < len then throw .waits else return some cmd
  | rounds + 1, cmd =>
      if cmd.length < len then do
        let more ← readround len cmd
        match more with
        | none => return none
        | some cmd => readpayload len rounds cmd
      else
        return some cmd

def readcommand : TapIo (Option (FrameHeader × Vector UInt8 128)) := do
  let selected ← readselect ioCdc
  match selected with
  | none => return none
  | some _ => do
      let first ← read ioCdc 1 1
      match first with
      | none => return none
      | some first =>
          match parseframe (first.headD 0) with
          | none => return none
          | some hdr => do
              let tap ← get
              let payload ←
                readpayload hdr.len (hdr.len + tap.uart.rx.length + 1) []
              match payload with
              | none => return none
              | some cmd =>
                  if hdr.endpoint ≠ dstFw then
                    return none
                  else
                    return some (hdr, ByteMemory.toVector 128 cmd)

/-- Calls of `readcommand` after one another. -/
def readcommands : Nat → TapIo Unit
  | 0 => return ()
  | calls + 1 => do
      readcommands calls
      let _ ← readcommand

end Tap

end Definitions

section Erasure

namespace Tap

/-- An outcome without the record. -/
def erase {α : Type} :
    EStateM.Result IoStop Tap α → EStateM.Result IoStop Uart α
  | .ok value tap => .ok value tap.uart
  | .error stop tap => .error stop tap.uart

/-- The record changes nothing about what a program does. -/
def Erases {α : Type} (tapped : TapIo α) (plain : Io α) : Prop :=
  ∀ tap, erase (tapped.run tap) = plain.run tap.uart

namespace Erases

variable {α β : Type}

protected theorem pure (value : α) :
    Erases (pure value : TapIo α) (pure value) :=
  fun _ => rfl

protected theorem throw (stop : IoStop) :
    Erases (throw stop : TapIo α) (throw stop) :=
  fun _ => rfl

protected theorem bind
    {tapped : TapIo α}
    {plain : Io α}
    {tappedNext : α → TapIo β}
    {plainNext : α → Io β}
    (first : Erases tapped plain)
    (next : ∀ value, Erases (tappedNext value) (plainNext value)) :
    Erases (tapped >>= tappedNext) (plain >>= plainNext) := by
  intro tap
  have ran := first tap
  rw [EStateM.run_bind, EStateM.run_bind, ← ran]
  cases tapped.run tap with
  | ok value tap' =>
      exact next value tap'
  | error stop tap' =>
      rfl

/-- Looking at the UART is looking at the UART of the record. -/
protected theorem get
    {tappedNext : Tap → TapIo β}
    {plainNext : Uart → Io β}
    (next : ∀ tap, Erases (tappedNext tap) (plainNext tap.uart)) :
    Erases (get >>= tappedNext) (get >>= plainNext) :=
  fun tap => next tap tap

protected theorem ite
    {condition : Prop}
    [Decidable condition]
    {tapped tapped' : TapIo α}
    {plain plain' : Io α}
    (yes : Erases tapped plain)
    (no : Erases tapped' plain') :
    Erases (if condition then tapped else tapped')
      (if condition then plain else plain') := by
  split
  · exact yes
  · exact no

end Erases

theorem erases_readbytes (count : Nat) :
    Erases (readbytes count) (Uart.readbytes count) := by
  induction count with
  | zero =>
      exact .pure []
  | succ count inductionHypothesis =>
      intro tap
      obtain ⟨⟨curEndpoint, rx⟩, points⟩ := tap
      cases rx with
      | nil =>
          rfl
      | cons byte rest =>
          exact inductionHypothesis.bind (fun rest => .pure (byte :: rest)) _

theorem erases_read (src : UInt8) (bufsize nbytes : Nat) :
    Erases (read src bufsize nbytes) (Uart.read src bufsize nbytes) := by
  refine .ite (.pure none) (.ite (.pure none) (.get fun tap => ?_))
  exact .ite (.pure (some []))
    ((erases_readbytes nbytes).bind fun bytes => .pure (some bytes))

theorem erases_discard (nbytes : Nat) :
    Erases (discard nbytes) (Uart.discard nbytes) :=
  .get fun _ => (erases_readbytes _).bind fun _ => .pure _

theorem erases_nextPacket : Erases nextPacket Uart.nextPacket := by
  refine .get fun tap => .ite ?_ (.pure ())
  intro tap
  obtain ⟨⟨curEndpoint, rx⟩, points⟩ := tap
  cases rx with
  | nil =>
      rfl
  | cons endpoint rest =>
      cases rest <;> rfl

theorem erases_readselectLoop (bitmask : UInt8) (rounds : Nat) :
    Erases (readselectLoop bitmask rounds)
      (Uart.readselectLoop bitmask rounds) := by
  induction rounds with
  | zero =>
      exact .throw .waits
  | succ rounds inductionHypothesis =>
      refine erases_nextPacket.bind fun _ => .get fun tap => ?_
      refine .ite (.pure _) ((erases_discard _).bind fun discarded => ?_)
      exact .ite (.throw .halt) inductionHypothesis

theorem erases_readselect (bitmask : UInt8) :
    Erases (readselect bitmask) (Uart.readselect bitmask) := by
  refine .ite (.pure none) (.get fun tap => ?_)
  exact (erases_readselectLoop bitmask _).bind fun len => .pure (some len)

theorem erases_readround (len : Nat) (cmd : List UInt8) :
    Erases (readround len cmd) (Uart.readround len cmd) := by
  refine (erases_readselect ioCdc).bind fun selected => ?_
  cases selected with
  | none =>
      exact .pure none
  | some available =>
      refine .ite (.throw .halt) ?_
      exact (erases_read ioCdc _ _).bind fun bytes => .pure _

theorem erases_readpayload (len rounds : Nat) (cmd : List UInt8) :
    Erases (readpayload len rounds cmd)
      (Uart.readpayload len rounds cmd) := by
  induction rounds generalizing cmd with
  | zero =>
      exact .ite (.throw .waits) (.pure (some cmd))
  | succ rounds inductionHypothesis =>
      refine .ite ((erases_readround len cmd).bind fun more => ?_)
        (.pure (some cmd))
      cases more with
      | none =>
          exact .pure none
      | some cmd =>
          exact inductionHypothesis cmd

/-- `readcommand` on the record does what it does on the UART. -/
theorem erases_readcommand : Erases readcommand Uart.readcommand := by
  refine (erases_readselect ioCdc).bind fun selected => ?_
  cases selected with
  | none =>
      exact .pure none
  | some available =>
      refine (erases_read ioCdc 1 1).bind fun first => ?_
      cases first with
      | none =>
          exact .pure none
      | some first =>
          dsimp only
          cases parseframe (first.headD 0) with
          | none =>
              exact .pure none
          | some hdr =>
              refine .get fun tap => ?_
              refine (erases_readpayload hdr.len _ []).bind fun payload => ?_
              cases payload with
              | none =>
                  exact .pure none
              | some cmd =>
                  exact .ite (.pure none) (.pure _)

end Tap

end Erasure

section InStep

/-- The points of a payload of which some bytes are left. -/
def payloadPoints : Nat → List Point
  | 0 => []
  | left + 1 => { role := .payload, len := left } :: payloadPoints left

/--
The points of a packet: the counter is what is left of the payload after each
byte.  The header counts when it is complete.
-/
def Packet.points (packet : Packet) : List Point :=
  { role := .mode, len := 0 } ::
    { role := .length, len := packet.payload.length } ::
      payloadPoints packet.payload.length

/-- The points of packets. -/
def packetPoints (packets : List Packet) : List Point :=
  packets.flatMap Packet.points

namespace Tap

/--
Every byte so far was taken as what it is, with the counter at what is left of
the payload of its packet.
-/
def InStep (packets : List Packet) (tap : Tap) : Prop :=
  tap.points.IsPrefix (packetPoints packets)

/-- The state in which a program ends. -/
def final {α : Type} : EStateM.Result IoStop Tap α → Tap
  | .ok _ tap => tap
  | .error _ tap => tap

/-- The UART stands in the payload of a packet, or behind it. -/
structure Synced
    (packets : List Packet)
    (chunk : List UInt8)
    (later : List Packet)
    (tap : Tap) : Prop where
  rx : tap.uart.rx = chunk ++ wire later
  len : tap.uart.curEndpoint.len.toNat = chunk.length
  points :
    packetPoints packets =
      tap.points ++ (payloadPoints chunk.length ++ packetPoints later)

/-- The UART stands somewhere in the packets. -/
def Follows (packets : List Packet) (tap : Tap) : Prop :=
  ∃ chunk later, tap.Synced packets chunk later

theorem Follows.inStep
    {packets : List Packet}
    {tap : Tap}
    (follows : tap.Follows packets) :
    tap.InStep packets := by
  obtain ⟨chunk, later, synced⟩ := follows
  exact ⟨_, synced.points.symm⟩

/-- A program that ends is in step, and returns with something that holds. -/
def Ends
    {α : Type}
    (packets : List Packet)
    (after : α → Tap → Prop)
    (result : EStateM.Result IoStop Tap α) : Prop :=
  match result with
  | .ok value tap => after value tap
  | .error _ tap => tap.InStep packets

theorem Ends.bind
    {α β : Type}
    {packets : List Packet}
    {middle : α → Tap → Prop}
    {after : β → Tap → Prop}
    {first : TapIo α}
    {next : α → TapIo β}
    {tap : Tap}
    (ends : Ends packets middle (first.run tap))
    (continues :
      ∀ value tap', middle value tap' →
        Ends packets after ((next value).run tap')) :
    Ends packets after ((first >>= next).run tap) := by
  rw [EStateM.run_bind]
  cases ran : first.run tap with
  | ok value tap' =>
      rw [ran] at ends
      exact continues value tap' ends
  | error stop tap' =>
      rw [ran] at ends
      exact ends

theorem Ends.imp
    {α : Type}
    {packets : List Packet}
    {before after : α → Tap → Prop}
    {result : EStateM.Result IoStop Tap α}
    (ends : Ends packets before result)
    (implies : ∀ value tap, before value tap → after value tap) :
    Ends packets after result := by
  cases result with
  | ok value tap =>
      exact implies value tap ends
  | error stop tap =>
      exact ends

/-- A byte of the payload is taken as such. -/
theorem take_payload
    {packets later : List Packet}
    {byte : UInt8}
    {chunk : List UInt8}
    {tap : Tap}
    (synced : tap.Synced packets (byte :: chunk) later) :
    ∃ tap',
      (take .payload fun _ current =>
          { current with len := current.len - 1 }).run tap =
        .ok byte tap' ∧
        tap'.Synced packets chunk later ∧
        tap'.uart.curEndpoint.endpoint = tap.uart.curEndpoint.endpoint := by
  obtain ⟨⟨⟨endpoint, len⟩, rx⟩, points⟩ := tap
  obtain ⟨rfl, counted, places⟩ := synced
  have less : (len - 1).toNat = chunk.length := by
    have length : len.toNat = chunk.length + 1 := counted
    have one : (1 : UInt8).toNat = 1 := rfl
    rw [UInt8.toNat_sub_of_le _ _ (by
      rw [UInt8.le_iff_toNat_le, length, one]
      exact Nat.le_add_left ..), length, one, Nat.add_sub_cancel]
  refine ⟨_, rfl, ⟨rfl, less, ?_⟩, rfl⟩
  rw [places, List.append_assoc, less]
  rfl

/-- Bytes of the current packet are taken as its payload. -/
theorem readbytes_ends
    {packets later : List Packet}
    {chunk : List UInt8}
    {tap : Tap}
    {count : Nat}
    (synced : tap.Synced packets chunk later)
    (enough : count ≤ chunk.length) :
    ∃ tap',
      (readbytes count).run tap = .ok (chunk.take count) tap' ∧
        tap'.Synced packets (chunk.drop count) later ∧
        tap'.uart.curEndpoint.endpoint = tap.uart.curEndpoint.endpoint := by
  induction count generalizing chunk tap with
  | zero =>
      exact ⟨tap, rfl, synced, rfl⟩
  | succ count inductionHypothesis =>
      cases chunk with
      | nil =>
          exact absurd enough (Nat.not_succ_le_zero count)
      | cons byte chunk =>
          obtain ⟨tap₁, takes, synced₁, same₁⟩ := take_payload synced
          obtain ⟨tap₂, reads, synced₂, same₂⟩ :=
            inductionHypothesis synced₁ (Nat.le_of_succ_le_succ enough)
          refine ⟨tap₂, ?_, synced₂, same₂.trans same₁⟩
          rw [readbytes, EStateM.run_bind, takes]
          simp only [EStateM.run_bind, reads]
          rfl

/-- What is read from the current endpoint must be left of its packet. -/
theorem read_ends
    {packets later : List Packet}
    {chunk : List UInt8}
    {tap : Tap}
    {src : UInt8}
    {bufsize nbytes : Nat}
    (synced : tap.Synced packets chunk later)
    (enough :
      src = tap.uart.curEndpoint.endpoint → nbytes ≤ chunk.length) :
    Ends packets (fun _ tap' => tap'.Follows packets)
      ((read src bufsize nbytes).run tap) := by
  have follows : tap.Follows packets := ⟨chunk, later, synced⟩
  rw [read]
  split
  · exact follows
  split
  · exact follows
  show Ends packets _ ((if src ≠ tap.uart.curEndpoint.endpoint then
    pure (some []) else do
      let bytes ← readbytes nbytes
      return some bytes : TapIo _).run tap)
  split
  · exact follows
  · next same =>
      obtain ⟨tap', reads, synced', _⟩ :=
        readbytes_ends synced (enough (not_not.mp same))
      rw [EStateM.run_bind, reads]
      exact ⟨_, later, synced'⟩

/--
The next packet that is selected for the CDC endpoint is empty, and more bytes
follow it.
-/
def EmptyNext (tap : Tap) : Prop :=
  ∃ chunk others rest,
    tap.uart.rx = chunk ++ wire others ++ ioCdc :: 0 :: rest ∧
      rest ≠ [] ∧
      tap.uart.curEndpoint.len.toNat = chunk.length ∧
      (chunk ≠ [] → tap.uart.curEndpoint.endpoint &&& ioCdc = 0) ∧
      ∀ packet ∈ others, packet.IsOther

/-- An empty packet is selected for the CDC endpoint, and bytes follow it. -/
structure AtEmpty (tap : Tap) : Prop where
  endpoint : tap.uart.curEndpoint.endpoint = ioCdc
  len : tap.uart.curEndpoint.len = 0
  rx : tap.uart.rx ≠ []

/-- A packet that still has data is not left for the next one. -/
theorem nextPacket_of_ne_nil
    {packets later : List Packet}
    {chunk : List UInt8}
    {tap : Tap}
    (synced : tap.Synced packets chunk later)
    (more : chunk ≠ []) :
    nextPacket.run tap = .ok () tap := by
  have left : tap.uart.curEndpoint.len ≠ 0 := by
    intro zero
    have none : chunk.length = 0 := by
      rw [← synced.len, zero]
      rfl
    exact more (List.length_eq_zero_iff.mp none)
  show (if tap.uart.curEndpoint.len = 0 then _ else pure () : TapIo Unit) tap =
    .ok () tap
  rw [if_neg left]
  rfl

theorem Synced.len_eq_zero
    {packets later : List Packet}
    {tap : Tap}
    (synced : tap.Synced packets [] later) :
    tap.uart.curEndpoint.len = 0 :=
  UInt8.toNat_inj.mp synced.len

/-- Behind the last packet the header of another one is waited for. -/
theorem nextPacket_of_nil
    {packets : List Packet}
    {tap : Tap}
    (synced : tap.Synced packets [] []) :
    nextPacket.run tap = .error .waits tap := by
  have usedUp := synced.len_eq_zero
  obtain ⟨⟨⟨endpoint, len⟩, rx⟩, points⟩ := tap
  obtain ⟨rfl, _, _⟩ := synced
  cases usedUp
  rfl

/-- Behind a used up packet the header of the next one is taken. -/
theorem nextPacket_of_cons
    {packets later : List Packet}
    {packet : Packet}
    {tap : Tap}
    (synced : tap.Synced packets [] (packet :: later)) :
    ∃ tap',
      nextPacket.run tap = .ok () tap' ∧
        tap'.Synced packets packet.payload later ∧
        tap'.uart.curEndpoint.endpoint = packet.mode := by
  have usedUp := synced.len_eq_zero
  obtain ⟨⟨⟨endpoint, len⟩, rx⟩, points⟩ := tap
  obtain ⟨rfl, _, places⟩ := synced
  cases usedUp
  have length := toNat_ofNat_length packet
  refine ⟨_, rfl, ⟨rfl, length, ?_⟩, rfl⟩
  rw [places]
  simp only [payloadPoints, packetPoints, List.length_nil, List.nil_append,
    List.flatMap_cons, Packet.points, List.append_assoc, List.cons_append,
    length]
  rfl

/-- The rest of a packet is discarded. -/
theorem discard_ends
    {packets later : List Packet}
    {chunk : List UInt8}
    {tap : Tap}
    (synced : tap.Synced packets chunk later) :
    ∃ tap',
      (discard tap.uart.curEndpoint.len.toNat).run tap =
          .ok tap.uart.curEndpoint.len.toNat tap' ∧
        tap'.Synced packets [] later := by
  obtain ⟨tap', reads, synced', _⟩ :=
    readbytes_ends synced (Nat.le_of_eq synced.len)
  refine ⟨tap', ?_, ?_⟩
  · show ((readbytes _ >>= fun _ => pure _ : TapIo Nat)).run tap = _
    rw [Nat.min_self, EStateM.run_bind, reads]
    rfl
  · rw [synced.len, List.drop_length] at synced'
    exact synced'

/-- What a discarded packet hides is still ahead. -/
theorem emptyNext_of_discarded
    {packets later : List Packet}
    {chunk : List UInt8}
    {tap tap' : Tap}
    (synced : tap.Synced packets chunk later)
    (synced' : tap'.Synced packets [] later)
    (other : tap.uart.curEndpoint.endpoint &&& ioCdc = 0)
    (ahead : tap'.EmptyNext) :
    tap.EmptyNext := by
  obtain ⟨left, others, rest, rx, more, len, -, areOther⟩ := ahead
  have none : left = [] :=
    List.length_eq_zero_iff.mp (len.symm.trans synced'.len)
  rw [synced'.rx, none] at rx
  refine ⟨chunk, others, rest, ?_, more, synced.len, fun _ => other, areOther⟩
  rw [synced.rx, List.append_assoc]
  exact congrArg (chunk ++ ·) rx

/-- So is what a whole packet of another endpoint hides. -/
theorem emptyNext_of_skipped
    {packets later : List Packet}
    {packet : Packet}
    {tap tap' : Tap}
    (synced : tap.Synced packets [] (packet :: later))
    (synced' : tap'.Synced packets [] later)
    (other : packet.IsOther)
    (ahead : tap'.EmptyNext) :
    tap.EmptyNext := by
  obtain ⟨left, others, rest, rx, more, len, -, areOther⟩ := ahead
  have none : left = [] :=
    List.length_eq_zero_iff.mp (len.symm.trans synced'.len)
  rw [synced'.rx, none] at rx
  refine ⟨[], packet :: others, rest, ?_, more, synced.len, ?_, ?_⟩
  · rw [synced.rx, wire_cons, wire_cons]
    simp only [List.nil_append, List.cons_append, List.append_assoc] at rx ⊢
    rw [rx]
  · intro some
    exact absurd rfl some
  · intro skipped member
    cases member with
    | head =>
        exact other
    | tail _ member =>
        exact areOther skipped member

/-- What is selected, and that it is not empty unless that was ahead. -/
def Selects
    (packets : List Packet)
    (start : Tap)
    (available : UInt8)
    (tap : Tap) : Prop :=
  available = tap.uart.curEndpoint.len ∧
    tap.Follows packets ∧
    (tap.AtEmpty → start.EmptyNext)

/-- The loop of `readselect` skips packets of other endpoints. -/
theorem readselectLoop_ends
    {packets : List Packet}
    {tap : Tap}
    (follows : tap.Follows packets)
    (rounds : Nat) :
    Ends packets (Selects packets tap)
      ((readselectLoop ioCdc rounds).run tap) := by
  induction rounds generalizing tap with
  | zero =>
      exact follows.inStep
  | succ rounds inductionHypothesis =>
      -- a round behind the header of a packet
      have round
          (current : Tap)
          {chunk : List UInt8}
          {later : List Packet}
          (synced : current.Synced packets chunk later)
          (empty : current.AtEmpty → tap.EmptyNext)
          (hidden :
            ∀ next : Tap,
              next.Synced packets [] later →
              current.uart.curEndpoint.endpoint &&& ioCdc = 0 →
              next.EmptyNext →
              tap.EmptyNext) :
          Ends packets (Selects packets tap)
            ((if current.uart.curEndpoint.endpoint &&& ioCdc ≠ 0 then
                pure current.uart.curEndpoint.len
              else do
                let discarded ← discard current.uart.curEndpoint.len.toNat
                if discarded ≠ current.uart.curEndpoint.len.toNat then
                  throw .halt
                else
                  readselectLoop ioCdc rounds : TapIo UInt8).run
              current) := by
        split
        · exact ⟨rfl, ⟨chunk, later, synced⟩, empty⟩
        · next other =>
            obtain ⟨next, discards, synced'⟩ := discard_ends synced
            rw [EStateM.run_bind, discards]
            dsimp only
            rw [if_neg (not_not_intro rfl)]
            refine (inductionHypothesis ⟨[], later, synced'⟩).imp ?_
            intro available selected selects
            exact ⟨selects.1, selects.2.1, fun atEmpty =>
              hidden next synced' (not_not.mp other) (selects.2.2 atEmpty)⟩
      obtain ⟨chunk, later, synced⟩ := follows
      rw [readselectLoop, EStateM.run_bind]
      by_cases usedUp : chunk = []
      · subst usedUp
        cases later with
        | nil =>
            rw [nextPacket_of_nil synced]
            exact Follows.inStep ⟨[], [], synced⟩
        | cons packet later =>
            obtain ⟨current, takes, synced', mode⟩ := nextPacket_of_cons synced
            rw [takes]
            refine round current synced' ?_ ?_
            · intro atEmpty
              have none : packet.payload = [] := by
                apply List.length_eq_zero_iff.mp
                rw [← synced'.len, atEmpty.len]
                rfl
              refine ⟨[], [], current.uart.rx, ?_, atEmpty.rx, synced.len,
                fun some => absurd rfl some,
                fun _ member => absurd member List.not_mem_nil⟩
              rw [synced.rx, synced'.rx, wire_cons, none, ← mode,
                atEmpty.endpoint]
              rfl
            · intro next skipped other ahead
              rw [mode] at other
              exact emptyNext_of_skipped synced skipped other ahead
      · rw [nextPacket_of_ne_nil synced usedUp]
        refine round tap synced ?_ ?_
        · intro atEmpty
          have none : chunk.length = 0 := by
            rw [← synced.len, atEmpty.len]
            rfl
          exact absurd (List.length_eq_zero_iff.mp none) usedUp
        · intro next skipped other ahead
          exact emptyNext_of_discarded synced skipped other ahead

theorem readselect_ends
    {packets : List Packet}
    {tap : Tap}
    (follows : tap.Follows packets) :
    Ends packets
      (fun selected tap' =>
        ∃ available, selected = some available ∧
          Selects packets tap available tap')
      ((readselect ioCdc).run tap) := by
  have physical :
      ¬ (ioCdc &&& ioUart ≠ 0 ∨ ioCdc &&& ioQemu ≠ 0) := by
    decide
  rw [readselect, if_neg physical]
  show Ends packets _
    ((readselectLoop ioCdc (tap.uart.rx.length + 2) >>= fun len =>
      pure (some len) : TapIo (Option UInt8)).run tap)
  exact (readselectLoop_ends follows _).bind
    fun available tap' selects => ⟨available, rfl, selects⟩

/-- A round asks for no more than is left of the packet. -/
theorem readround_ends
    {packets : List Packet}
    {tap : Tap}
    (follows : tap.Follows packets)
    (len : Nat)
    (cmd : List UInt8) :
    Ends packets (fun _ tap' => tap'.Follows packets)
      ((readround len cmd).run tap) := by
  refine (readselect_ends follows).bind ?_
  rintro _ tap' ⟨available, rfl, left, ⟨chunk, later, synced⟩, -⟩
  dsimp only
  split
  · exact Follows.inStep ⟨chunk, later, synced⟩
  · refine (read_ends synced fun _ => ?_).bind
      fun bytes tap'' follows => follows
    rw [Uart.readround_asks, left, synced.len]
    exact Nat.min_le_left ..

theorem readpayload_ends
    {packets : List Packet}
    {tap : Tap}
    (follows : tap.Follows packets)
    (len rounds : Nat)
    (cmd : List UInt8) :
    Ends packets (fun _ tap' => tap'.Follows packets)
      ((readpayload len rounds cmd).run tap) := by
  induction rounds generalizing tap cmd with
  | zero =>
      rw [readpayload]
      split
      · exact follows.inStep
      · exact follows
  | succ rounds inductionHypothesis =>
      rw [readpayload]
      split
      · refine (readround_ends follows len cmd).bind ?_
        intro more tap' follows'
        cases more with
        | none =>
            exact follows'
        | some cmd =>
            exact inductionHypothesis follows' cmd
      · exact follows

/-- What `readcommand` does with the first bytes it read. -/
def parse (first : Option (List UInt8)) :
    TapIo (Option (FrameHeader × Vector UInt8 128)) :=
  match first with
  | none => return none
  | some first =>
      match parseframe (first.headD 0) with
      | none => return none
      | some hdr => do
          let tap ← get
          let payload ←
            readpayload hdr.len (hdr.len + tap.uart.rx.length + 1) []
          match payload with
          | none => return none
          | some cmd =>
              if hdr.endpoint ≠ dstFw then
                return none
              else
                return some (hdr, ByteMemory.toVector 128 cmd)

theorem parse_ends
    {packets : List Packet}
    {tap : Tap}
    (follows : tap.Follows packets)
    (first : Option (List UInt8)) :
    Ends packets (fun _ tap' => tap'.Follows packets)
      ((parse first).run tap) := by
  cases first with
  | none =>
      exact follows
  | some first =>
      rw [parse]
      cases parseframe (first.headD 0) with
      | none =>
          exact follows
      | some hdr =>
          refine (readpayload_ends follows hdr.len
            (hdr.len + tap.uart.rx.length + 1) []).bind ?_
          intro payload tap' follows'
          cases payload with
          | none =>
              exact follows'
          | some cmd =>
              dsimp only
              split <;> exact follows'

/-- A call that does not start before an empty packet stays in step. -/
theorem readcommand_ends
    {packets : List Packet}
    {tap : Tap}
    (follows : tap.Follows packets)
    (starts : ¬ tap.EmptyNext) :
    Ends packets (fun _ tap' => tap'.Follows packets)
      (readcommand.run tap) := by
  refine (readselect_ends follows).bind ?_
  rintro _ tap' ⟨available, rfl, -, ⟨chunk, later, synced⟩, empty⟩
  have first :
      Ends packets (fun _ tap'' => tap''.Follows packets)
        ((read ioCdc 1 1).run tap') := by
    by_cases enough :
        ioCdc = tap'.uart.curEndpoint.endpoint → 1 ≤ chunk.length
    · exact read_ends synced enough
    -- an empty packet was selected, so nothing follows it
    obtain ⟨endpoint, short⟩ := Classical.not_imp.mp enough
    have none : chunk = [] :=
      List.length_eq_zero_iff.mp (Nat.lt_one_iff.mp (Nat.not_le.mp short))
    subst none
    have last : tap'.uart.rx = [] := by
      by_contra more
      exact starts (empty ⟨endpoint.symm, synced.len_eq_zero, more⟩)
    have inStep : tap'.InStep packets := Follows.inStep ⟨[], later, synced⟩
    obtain ⟨⟨⟨current, len⟩, rx⟩, points⟩ := tap'
    cases last
    cases endpoint
    exact inStep
  exact first.bind fun first _ follows' => parse_ends follows' first

/-- What was taken stays on the record. -/
def Grows {α : Type} (io : TapIo α) : Prop :=
  ∀ tap : Tap, tap.points.IsPrefix (final (io.run tap)).points

namespace Grows

variable {α β : Type}

protected theorem pure (value : α) : Grows (pure value : TapIo α) :=
  fun _ => List.prefix_rfl

protected theorem throw (stop : IoStop) : Grows (throw stop : TapIo α) :=
  fun _ => List.prefix_rfl

protected theorem bind
    {first : TapIo α}
    {next : α → TapIo β}
    (grows : Grows first)
    (later : ∀ value, Grows (next value)) :
    Grows (first >>= next) := by
  intro tap
  have grown := grows tap
  rw [EStateM.run_bind]
  cases ran : first.run tap with
  | ok value tap' =>
      rw [ran] at grown
      exact grown.trans (later value tap')
  | error stop tap' =>
      rw [ran] at grown
      exact grown

protected theorem get
    {next : Tap → TapIo β}
    (later : ∀ tap, Grows (next tap)) :
    Grows (get >>= next) :=
  fun tap => later tap tap

protected theorem ite
    {condition : Prop}
    [Decidable condition]
    {yes no : TapIo α}
    (whenYes : Grows yes)
    (whenNo : Grows no) :
    Grows (if condition then yes else no) := by
  split
  · exact whenYes
  · exact whenNo

end Grows

theorem grows_take (role : Role) (note : UInt8 → UsbMode → UsbMode) :
    Grows (take role note) := by
  intro tap
  obtain ⟨⟨curEndpoint, rx⟩, points⟩ := tap
  cases rx with
  | nil =>
      exact List.prefix_rfl
  | cons byte rest =>
      exact List.prefix_append ..

theorem grows_readbytes (count : Nat) : Grows (readbytes count) := by
  induction count with
  | zero =>
      exact .pure []
  | succ count inductionHypothesis =>
      exact (grows_take _ _).bind fun byte =>
        inductionHypothesis.bind fun rest => .pure (byte :: rest)

theorem grows_read (src : UInt8) (bufsize nbytes : Nat) :
    Grows (read src bufsize nbytes) :=
  .ite (.pure none) <| .ite (.pure none) <| .get fun _ =>
    .ite (.pure (some [])) <|
      (grows_readbytes nbytes).bind fun bytes => .pure (some bytes)

theorem grows_discard (nbytes : Nat) : Grows (discard nbytes) :=
  .get fun _ => (grows_readbytes _).bind fun _ => .pure _

theorem grows_nextPacket : Grows nextPacket :=
  .get fun _ => .ite
    ((grows_take _ _).bind fun _ =>
      (grows_take _ _).bind fun _ => .pure ())
    (.pure ())

theorem grows_readselectLoop (bitmask : UInt8) (rounds : Nat) :
    Grows (readselectLoop bitmask rounds) := by
  induction rounds with
  | zero =>
      exact .throw .waits
  | succ rounds inductionHypothesis =>
      exact grows_nextPacket.bind fun _ => .get fun _ =>
        .ite (.pure _) <| (grows_discard _).bind fun _ =>
          .ite (.throw .halt) inductionHypothesis

theorem grows_readselect (bitmask : UInt8) : Grows (readselect bitmask) :=
  .ite (.pure none) <| .get fun _ =>
    (grows_readselectLoop bitmask _).bind fun len => .pure (some len)

theorem grows_readround (len : Nat) (cmd : List UInt8) :
    Grows (readround len cmd) := by
  refine (grows_readselect ioCdc).bind fun selected => ?_
  cases selected with
  | none =>
      exact .pure none
  | some available =>
      exact .ite (.throw .halt) <|
        (grows_read ioCdc _ _).bind fun bytes => .pure _

theorem grows_readpayload (len rounds : Nat) (cmd : List UInt8) :
    Grows (readpayload len rounds cmd) := by
  induction rounds generalizing cmd with
  | zero =>
      exact .ite (.throw .waits) (.pure (some cmd))
  | succ rounds inductionHypothesis =>
      refine .ite ((grows_readround len cmd).bind fun more => ?_)
        (.pure (some cmd))
      cases more with
      | none =>
          exact .pure none
      | some cmd =>
          exact inductionHypothesis cmd

theorem grows_parse (first : Option (List UInt8)) : Grows (parse first) := by
  cases first with
  | none =>
      exact .pure none
  | some first =>
      rw [parse]
      cases parseframe (first.headD 0) with
      | none =>
          exact .pure none
      | some hdr =>
          refine .get fun tap => ?_
          refine (grows_readpayload hdr.len _ []).bind fun payload => ?_
          cases payload with
          | none =>
              exact .pure none
          | some cmd =>
              exact .ite (.pure none) (.pure _)

theorem grows_readcommand : Grows readcommand := by
  refine (grows_readselect ioCdc).bind fun selected => ?_
  cases selected with
  | none =>
      exact .pure none
  | some available =>
      exact (grows_read ioCdc 1 1).bind grows_parse

/-- Skipping packets of other endpoints leads to what is behind them. -/
theorem readselectLoop_skips
    {uart uart' : Uart}
    {len : UInt8}
    {others : List Packet}
    {rest : List UInt8}
    (usedUp : uart.curEndpoint.len = 0)
    (rx : uart.rx = wire others ++ rest)
    (areOther : ∀ packet ∈ others, packet.IsOther)
    (behind :
      ∀ uart : Uart, uart.curEndpoint.len = 0 → uart.rx = rest →
        ∀ rounds, (Uart.readselectLoop ioCdc (rounds + 1)).run uart =
          .ok len uart')
    (rounds : Nat) :
    (Uart.readselectLoop ioCdc (others.length + rounds + 1)).run uart =
      .ok len uart' := by
  induction others generalizing uart with
  | nil =>
      rw [List.length_nil, Nat.zero_add]
      exact behind uart usedUp rx rounds
  | cons packet others inductionHypothesis =>
      have rx' :
          uart.rx =
            packet.mode :: UInt8.ofNat packet.payload.length ::
              (packet.payload ++ (wire others ++ rest)) := by
        rw [rx, wire_cons]
        simp only [List.cons_append, List.append_assoc]
      have more :
          (packet :: others).length + rounds + 1 =
            others.length + rounds + 1 + 1 := by
        rw [List.length_cons]
        omega
      have left :
          (UInt8.ofNat packet.payload.length -
            UInt8.ofNat packet.payload.length) = 0 :=
        UInt8.sub_self _
      rw [more, Uart.readselectLoop_run_discarded
        (Uart.nextPacket_run usedUp rx')
        (areOther packet List.mem_cons_self)
        (toNat_ofNat_length packet) rfl]
      exact inductionHypothesis left rfl fun other member =>
        areOther other (List.mem_cons_of_mem _ member)

/-- The empty packet ahead is selected. -/
theorem readselect_emptyNext
    {tap : Tap}
    (ahead : tap.EmptyNext) :
    ∃ rest : List UInt8,
      rest ≠ [] ∧
        (Uart.readselect ioCdc).run tap.uart =
          .ok (some 0)
            { curEndpoint := { endpoint := ioCdc, len := 0 }, rx := rest } := by
  obtain ⟨chunk, others, rest, rx, more, len, other, areOther⟩ := ahead
  have behind
      (uart : Uart)
      (usedUp : uart.curEndpoint.len = 0)
      (rx : uart.rx = ioCdc :: 0 :: rest)
      (rounds : Nat) :
      (Uart.readselectLoop ioCdc (rounds + 1)).run uart =
        .ok 0
          { curEndpoint := { endpoint := ioCdc, len := 0 }, rx := rest } :=
    Uart.readselectLoop_run_selected (Uart.nextPacket_run usedUp rx)
      (show ioCdc &&& ioCdc ≠ 0 by decide) rounds
  refine ⟨rest, more, Uart.readselect_cdc_run ?_⟩
  have short := length_le_length_wire others
  have total : tap.uart.rx.length = chunk.length + (wire others).length +
      (rest.length + 2) := by
    rw [rx]
    simp only [List.length_append, List.length_cons]
  obtain ⟨rounds, enough⟩ :
      ∃ rounds, tap.uart.rx.length + 2 = others.length + rounds + 1 + 1 :=
    ⟨tap.uart.rx.length - others.length, by omega⟩
  rw [enough]
  by_cases usedUp : chunk = []
  · rw [usedUp, List.nil_append] at rx
    rw [usedUp] at len
    exact readselectLoop_skips (UInt8.toNat_inj.mp len) rx areOther behind
      (rounds + 1)
  · have left : tap.uart.curEndpoint.len ≠ 0 := by
      intro zero
      rw [zero] at len
      exact usedUp (List.length_eq_zero_iff.mp len.symm)
    have none :
        tap.uart.curEndpoint.len - UInt8.ofNat chunk.length = 0 := by
      rw [← len, UInt8.ofNat_toNat, UInt8.sub_self]
    rw [Uart.readselectLoop_run_discarded
      (Uart.nextPacket_run_of_ne_zero left) (other usedUp) len
      (rx.trans (List.append_assoc ..))]
    exact readselectLoop_skips none rfl areOther behind rounds

/-- A call that starts before an empty packet takes a mode as payload. -/
theorem readcommand_outOfStep
    {packets : List Packet}
    {tap : Tap}
    (follows : tap.Follows packets)
    (ahead : tap.EmptyNext) :
    ¬ (final (readcommand.run tap)).InStep packets := by
  obtain ⟨rest, more, selects⟩ := readselect_emptyNext ahead
  have erased := erases_readselect ioCdc tap
  have ends := readselect_ends follows
  rw [selects] at erased
  cases ran : (readselect ioCdc).run tap with
  | error stop tap' =>
      rw [ran] at erased
      cases erased
  | ok selected tap' =>
      rw [ran] at erased ends
      obtain ⟨-, -, -, ⟨chunk, later, synced⟩, -⟩ := ends
      obtain ⟨uart, points⟩ := tap'
      cases erased
      have none : chunk = [] := List.length_eq_zero_iff.mp synced.len.symm
      subst none
      have behind : rest = wire later := synced.rx
      cases later with
      | nil =>
          exact absurd behind more
      | cons packet later =>
          rw [wire_cons] at behind
          subst behind
          intro inStep
          have grown :
              (points ++ [(⟨.payload, 255⟩ : Point)]).IsPrefix
                (packetPoints packets) := by
            refine List.IsPrefix.trans ?_ inStep
            rw [readcommand, EStateM.run_bind, ran]
            exact grows_parse (some [packet.mode])
              { uart :=
                  { curEndpoint := { endpoint := ioCdc, len := 255 }
                    rx :=
                      UInt8.ofNat packet.payload.length ::
                        (packet.payload ++ wire later) }
                points := points ++ [⟨.payload, 255⟩] }
          obtain ⟨others, places⟩ := grown
          rw [synced.points, List.append_assoc] at places
          have heads := List.append_cancel_left places
          cases heads

/-- The packets are on the wire and nothing was taken yet. -/
theorem follows_initial (packets : List Packet) :
    (initial (wire packets)).Follows packets :=
  ⟨[], packets, rfl, rfl, rfl⟩

/-- A call ends the calls, or they ended before. -/
theorem final_readcommands_succ (calls : Nat) (tap : Tap) :
    final ((readcommands (calls + 1)).run tap) =
      match (readcommands calls).run tap with
      | .ok _ tap' => final (readcommand.run tap')
      | .error _ tap' => tap' := by
  rw [readcommands, EStateM.run_bind]
  cases (readcommands calls).run tap with
  | ok value tap' =>
      dsimp only
      rw [EStateM.run_bind]
      cases readcommand.run tap' <;> rfl
  | error stop tap' =>
      rfl

/-- No call starts before an empty packet. -/
def StartsWell (calls : Nat) (start : Tap) : Prop :=
  ∀ call < calls, ∀ tap,
    (readcommands call).run start = .ok () tap → ¬ tap.EmptyNext

/-- Calls that start well follow the packets. -/
theorem readcommands_ends
    {packets : List Packet}
    {start : Tap}
    (follows : start.Follows packets)
    {calls : Nat}
    (starts : StartsWell calls start) :
    Ends packets (fun _ tap => tap.Follows packets)
      ((readcommands calls).run start) := by
  induction calls with
  | zero =>
      exact follows
  | succ calls inductionHypothesis =>
      have earlier :=
        inductionHypothesis fun call before =>
          starts call (Nat.lt_succ_of_lt before)
      rw [readcommands, EStateM.run_bind]
      cases ran : (readcommands calls).run start with
      | ok value tap =>
          rw [ran] at earlier
          exact (readcommand_ends earlier
            (starts calls (Nat.lt_succ_self calls) tap ran)).bind
            fun _ _ follows' => follows'
      | error stop tap =>
          rw [ran] at earlier
          exact earlier

theorem Ends.inStep
    {α : Type}
    {packets : List Packet}
    {result : EStateM.Result IoStop Tap α}
    (ends : Ends packets (fun _ tap => tap.Follows packets) result) :
    (final result).InStep packets := by
  cases result with
  | ok value tap =>
      exact Follows.inStep ends
  | error stop tap =>
      exact ends

/--
The counter is in step with the packets at every byte that calls of
`readcommand` take from the UART exactly when no call starts before an empty
packet for the CDC endpoint that is not the last packet.
-/
theorem counter_in_step_iff (packets : List Packet) (calls : Nat) :
    (final ((readcommands calls).run (initial (wire packets)))).InStep
        packets ↔
      StartsWell calls (initial (wire packets)) := by
  have follows := follows_initial packets
  constructor
  · induction calls with
    | zero =>
        intro _ call before
        exact absurd before (Nat.not_lt_zero call)
    | succ calls inductionHypothesis =>
        intro inStep
        have last := final_readcommands_succ calls (initial (wire packets))
        cases ran : (readcommands calls).run (initial (wire packets)) with
        | error stop tap =>
            rw [ran] at last inductionHypothesis
            rw [last] at inStep
            intro call before tap' reaches
            rcases Nat.lt_succ_iff_lt_or_eq.mp before with earlier | rfl
            · exact inductionHypothesis inStep call earlier tap' reaches
            · rw [ran] at reaches
              cases reaches
        | ok value tap =>
            rw [ran] at last inductionHypothesis
            rw [last] at inStep
            have starts :=
              inductionHypothesis ((grows_readcommand tap).trans inStep)
            have reached := readcommands_ends follows starts
            rw [ran] at reached
            intro call before tap' reaches
            rcases Nat.lt_succ_iff_lt_or_eq.mp before with earlier | rfl
            · exact starts call earlier tap' reaches
            · rw [ran] at reaches
              cases reaches
              intro ahead
              exact readcommand_outOfStep reached ahead inStep
  · intro starts
    exact (readcommands_ends follows starts).inStep

/--
An empty packet for the CDC endpoint comes first: the mode of the next packet
is taken as payload and the counter wraps.
-/
theorem counter_in_step_counterexample :
    let packets : List Packet :=
      [⟨ioCdc, [], by decide⟩, ⟨ioCdc, [0x10, 0x01], by decide⟩]
    let tap := final ((readcommands 1).run (initial (wire packets)))
    ¬ tap.InStep packets ∧
      tap.points =
        [⟨.mode, 0⟩, ⟨.length, 0⟩, ⟨.payload, 255⟩, ⟨.payload, 254⟩] := by
  unfold InStep
  decide

end Tap

end InStep

end TKey
