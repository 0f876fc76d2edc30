import TKey.SyscallHandler

namespace TKey

open ByteMemory

/-!
# Firmware protocol

`proto.c`: the frames that the client and the firmware exchange.  What arrives
for one call of `readcommand` is an input of the model; the endpoints of the
USB controller below it are not modelled here.
-/

/-- `CMDSIZE`. -/
def cmdsize : Nat := 128

/-- `DST_FW`. -/
def dstFw : UInt8 := 2

section Codes

/-- `enum fwcmd`, the commands and responses of the firmware. -/
def fwCmdNameVersion : UInt8 := 0x01

def fwRspNameVersion : UInt8 := 0x02

def fwCmdLoadApp : UInt8 := 0x03

def fwRspLoadApp : UInt8 := 0x04

def fwCmdLoadAppData : UInt8 := 0x05

def fwRspLoadAppData : UInt8 := 0x06

def fwRspLoadAppDataReady : UInt8 := 0x07

def fwCmdGetUdi : UInt8 := 0x08

def fwRspGetUdi : UInt8 := 0x09

/-- `enum status`. -/
def statusOk : UInt8 := 0

def statusBad : UInt8 := 1

end Codes

/-- `struct frame_header`. -/
structure FrameHeader where
  id : UInt8
  endpoint : UInt8
  len : Nat
  deriving DecidableEq

/-- The number of bytes that a length code stands for. -/
def bytelen (cmdlen : UInt8) : Option Nat :=
  if cmdlen = 0 then some 1
  else if cmdlen = 1 then some 4
  else if cmdlen = 2 then some 32
  else if cmdlen = 3 then some 128
  else none

def genhdr (id endpoint status len : UInt8) : UInt8 :=
  (id <<< 5) ||| (endpoint <<< 3) ||| (status <<< 2) ||| len

/-- Parse a frame header byte; `none` stands for `-1`. -/
def parseframe (b : UInt8) : Option FrameHeader :=
  if b &&& 0x80 ≠ 0 then
    none
  else if b &&& 0x4 ≠ 0 then
    none
  else do
    let len ← bytelen (b &&& 0x3)
    return {
      id := (b &&& 0x60) >>> 5
      endpoint := (b &&& 0x18) >>> 3
      len := len }

/--
What the CDC endpoint delivers to one call of `readcommand`: a failing read,
or a header byte together with the contents of the command buffer after the
payload was received.
-/
inductive Incoming where
  | failed
  | frame (header : UInt8) (cmd : Vector UInt8 128)
  deriving DecidableEq

/-- Read a frame that is meant for the firmware; `none` stands for `-1`. -/
def readcommand (incoming : Incoming) :
    Option (FrameHeader × Vector UInt8 128) :=
  match incoming with
  | .failed => none
  | .frame header cmd =>
      match parseframe header with
      | none => none
      | some hdr =>
          if hdr.endpoint ≠ dstFw then none else some (hdr, cmd)

/-- The length code of a response. -/
def responseLen (rspcode : UInt8) : Option UInt8 :=
  if rspcode = fwRspNameVersion then some 2
  else if rspcode = fwRspLoadApp then some 1
  else if rspcode = fwRspLoadAppData then some 1
  else if rspcode = fwRspLoadAppDataReady then some 3
  else if rspcode = fwRspGetUdi then some 2
  else none

/--
Send a firmware reply with a frame header, a response code and the following
data in `buf`.
-/
def fwreply
    (hdr : FrameHeader)
    (rspcode : UInt8)
    (buf : Vector UInt8 128) : Fw Unit :=
  match responseLen rspcode with
  | none => return ()
  | some len =>
      let nbytes := (bytelen len).getD 0
      let frame :=
        genhdr hdr.id hdr.endpoint 0 len :: rspcode ::
          buf.toList.take (nbytes - 1)
      modify fun m => { m with replies := m.replies ++ [frame] }

/-- A reply changes nothing but the frames that were sent. -/
theorem fwreply_run
    (hdr : FrameHeader)
    (rspcode : UInt8)
    (buf : Vector UInt8 128)
    (m : Machine) :
    ∃ replies,
      (fwreply hdr rspcode buf).run m =
        .ok () { m with replies := replies } := by
  rw [fwreply]
  cases responseLen rspcode with
  | none =>
      exact ⟨m.replies, rfl⟩
  | some len =>
      exact ⟨_, rfl⟩

end TKey
