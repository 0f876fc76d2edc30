import TKey.UsbMode

namespace TKey.Ch552

/-!
# Control transfers of the USB controller

Endpoint 0 in `main.c` of the CH552 firmware: what a SETUP packet and the IN
tokens after it return to the host.  A byte that is copied through `pDescr` is
represented by the place that it is read from.
-/

section Configuration

/-- FIDO and CCID can't be enabled at the same time. -/
def withoutBoth (active : UInt8) : UInt8 :=
  if active &&& ioFido ≠ 0 ∧ active &&& ioCcid ≠ 0 then
    active &&& ~~~(ioFido ||| ioCcid)
  else
    active

/-- The endpoints that `main` activates, from the register `RESET_KEEP`. -/
def activeEndpoints (resetKeep : UInt8) : UInt8 :=
  let active :=
    if resetKeep &&& ioCdc = 0 then resetKeep ||| ioCdc else resetKeep
  let active :=
    if active &&& ioCh552 = 0 then active ||| ioCh552 else active
  withoutBoth active

/-- `MAX_CFG_DESC_SIZE`, the size of the array `ActiveCfgDesc`. -/
def maxCfgDescSize : Nat := 9 + 66 + 77 + 32

/-- What `CreateCfgDescriptor` leaves behind. -/
structure CfgDescriptor where
  /-- `ActiveCfgDescSize`. -/
  size : Nat
  numIface : UInt8
  fidoInterfaceNum : UInt8
  ccidInterfaceNum : UInt8
  debugInterfaceNum : UInt8

/-- `CreateCfgDescriptor`, apart from the contents of the descriptor. -/
def createCfgDescriptor (epConfig : UInt8) : CfgDescriptor :=
  let cfg : CfgDescriptor :=
    { size := 9
      numIface := 0
      fidoInterfaceNum := 0xFF
      ccidInterfaceNum := 0xFF
      debugInterfaceNum := 0xFF }
  let cfg :=
    if epConfig &&& ioCdc ≠ 0 then
      { cfg with size := cfg.size + 66, numIface := cfg.numIface + 2 }
    else
      cfg
  let cfg :=
    if epConfig &&& ioFido ≠ 0 then
      { cfg with
        size := cfg.size + 32
        fidoInterfaceNum := cfg.numIface
        numIface := cfg.numIface + 1 }
    else
      cfg
  let cfg :=
    if epConfig &&& ioCcid ≠ 0 then
      { cfg with
        size := cfg.size + 77
        ccidInterfaceNum := cfg.numIface
        numIface := cfg.numIface + 1 }
    else
      cfg
  if epConfig &&& ioDebug ≠ 0 then
    { cfg with
      size := cfg.size + 32
      debugInterfaceNum := cfg.numIface
      numIface := cfg.numIface + 1 }
  else
    cfg

/-- The tables that `pDescr` can point to. -/
inductive Descriptor where
  | dev
  | activeCfg
  | lang
  | manuf
  | prod
  | serial
  | cdcCtrlInterface
  | cdcDataInterface
  | fidoInterface
  | ccidInterface
  | debugInterface
  | fidoCfg
  | debugCfg
  | fidoReport
  | debugReport
  | lineCoding
  deriving Repr, DecidableEq

/-- The number of bytes of a table. -/
def Descriptor.size (cfg : CfgDescriptor) : Descriptor → Nat
  | .dev => 18
  | .activeCfg => cfg.size
  | .lang => 4
  | .manuf => 18
  | .prod => 42
  | .serial => 74
  | .cdcCtrlInterface => 18
  | .cdcDataInterface => 18
  | .fidoInterface => 10
  | .ccidInterface => 10
  | .debugInterface => 12
  | .fidoCfg => 9
  | .debugCfg => 9
  | .fidoReport => 47
  | .debugReport => 34
  | .lineCoding => 7

end Configuration

section Requests

/-- `BUF_EP0_SIZE`. -/
def bufEp0Size : Nat := 64

def usbGetStatus : UInt8 := 0x00

def usbClearFeature : UInt8 := 0x01

def usbSetFeature : UInt8 := 0x03

def usbSetAddress : UInt8 := 0x05

def usbGetDescriptor : UInt8 := 0x06

def usbGetConfiguration : UInt8 := 0x08

def usbSetConfiguration : UInt8 := 0x09

def usbGetInterface : UInt8 := 0x0A

/-- The class requests that are answered without data. -/
def quietClassRequests : List UInt8 :=
  [0x01, 0x02, 0x03, 0x09, 0x0A, 0x0B, 0x20, 0x22]

def usbCdcReqTypeGetLineCoding : UInt8 := 0x21

def usbReqTypeMask : UInt8 := 0x60

def usbReqTypeStandard : UInt8 := 0x00

def usbReqTypeClass : UInt8 := 0x20

def usbReqTypeVendor : UInt8 := 0x40

def usbReqRecipMask : UInt8 := 0x1F

def usbReqRecipDevice : UInt8 := 0x00

def usbReqRecipEndp : UInt8 := 0x02

def usbDescTypeDevice : UInt8 := 0x01

def usbDescTypeConfiguration : UInt8 := 0x02

def usbDescTypeString : UInt8 := 0x03

def usbDescTypeDeviceQualifier : UInt8 := 0x06

def usbDescTypeDebug : UInt8 := 0x0A

def usbDescTypeHid : UInt8 := 0x21

def usbDescTypeReport : UInt8 := 0x22

/-- `USB_SETUP_REQ`, with the length of the packet that was received. -/
structure SetupPacket where
  /-- `USB_RX_LEN`. -/
  rxLen : UInt8
  bmRequestType : UInt8
  bRequest : UInt8
  wValueL : UInt8
  wValueH : UInt8
  wIndexL : UInt8
  wIndexH : UInt8
  wLengthL : UInt8
  wLengthH : UInt8
  deriving DecidableEq

def SetupPacket.type (packet : SetupPacket) : UInt8 :=
  packet.bmRequestType &&& usbReqTypeMask

def SetupPacket.recipient (packet : SetupPacket) : UInt8 :=
  packet.bmRequestType &&& usbReqRecipMask

def SetupPacket.wValue (packet : SetupPacket) : Nat :=
  packet.wValueH.toNat * 256 + packet.wValueL.toNat

def SetupPacket.wIndex (packet : SetupPacket) : Nat :=
  packet.wIndexH.toNat * 256 + packet.wIndexL.toNat

def SetupPacket.wLength (packet : SetupPacket) : Nat :=
  packet.wLengthH.toNat * 256 + packet.wLengthL.toNat

/-- The string descriptor for an index. -/
def stringDescriptor (index : UInt8) : Option Descriptor :=
  if index = 0x00 then some .lang
  else if index = 0x01 then some .manuf
  else if index = 0x02 then some .prod
  else if index = 0x03 then some .serial
  else if index = 0x04 then some .cdcCtrlInterface
  else if index = 0x05 then some .cdcDataInterface
  else if index = 0x06 then some .fidoInterface
  else if index = 0x07 then some .ccidInterface
  else if index = 0x08 then some .debugInterface
  else none

/-- The HID or report descriptor of an interface. -/
def interfaceDescriptor
    (cfg : CfgDescriptor)
    (fido debug : Descriptor)
    (interface : UInt8) : Option Descriptor :=
  if interface = cfg.fidoInterfaceNum then some fido
  else if interface = cfg.debugInterfaceNum then some debug
  else none

end Requests

section Handlers

/-- What `pDescr` points to; without a table it is an offset to `NULL`. -/
structure Pointer where
  table : Option Descriptor
  offset : Nat
  deriving DecidableEq

/-- A byte of the buffer of endpoint 0. -/
inductive Source where
  /-- Written by the handler or received from the host. -/
  | value (byte : UInt8)
  /-- Copied through `pDescr`. -/
  | copied (pointer : Pointer)
  deriving DecidableEq

/-- How endpoint 0 answers an IN token. -/
inductive Response where
  | ack
  | nak
  | stall
  deriving Repr, DecidableEq

/-- The variables and registers of endpoint 0. -/
structure Ep0 where
  setupReq : UInt8
  setupLen : Nat
  pDescr : Pointer
  /-- `Ep0Buffer`. -/
  buffer : Nat → Source
  /-- `UEP0_T_LEN`. -/
  tLen : Nat
  /-- The bits `MASK_UEP_T_RES` of `UEP0_CTRL`. -/
  tRes : Response
  usbConfig : UInt8

/-- Endpoint 0 when `main` enters its loop. -/
def Ep0.initial : Ep0 where
  setupReq := 0
  setupLen := 0
  pDescr := { table := none, offset := 0 }
  buffer := fun _ => .value 0
  tLen := 0
  tRes := .nak
  usbConfig := 0

/-- The pointer `count` bytes further on. -/
def Pointer.add (pointer : Pointer) (count : Nat) : Pointer :=
  { pointer with offset := pointer.offset + count }

namespace Ep0

/-- Copy what fits into the buffer; also returns how much. -/
def upload (state : Ep0) : Ep0 × Nat :=
  let len :=
    if state.setupLen ≥ bufEp0Size then bufEp0Size else state.setupLen
  ({ state with
      buffer := fun index =>
        if index < len then .copied (state.pDescr.add index)
        else state.buffer index
      setupLen := state.setupLen - len
      pDescr := state.pDescr.add len },
    len)

/-- Start to upload a table. -/
def sendDescr
    (cfg : CfgDescriptor)
    (descriptor : Descriptor)
    (state : Ep0) : Ep0 × Nat :=
  upload
    { state with
      pDescr := { table := some descriptor, offset := 0 }
      setupLen := min state.setupLen (descriptor.size cfg) }

/-- Start to upload a table if there is one. -/
def sendFound
    (cfg : CfgDescriptor)
    (found : Option Descriptor)
    (state : Ep0) : Ep0 × Nat :=
  match found with
  | some descriptor => state.sendDescr cfg descriptor
  | none => (state, 0xFF)

/-- The request `USB_GET_DESCRIPTOR`. -/
def getDescriptor
    (cfg : CfgDescriptor)
    (packet : SetupPacket)
    (state : Ep0) : Ep0 × Nat :=
  if packet.wValueH = usbDescTypeDevice then
    state.sendDescr cfg .dev
  else if packet.wValueH = usbDescTypeDeviceQualifier then
    (state, 0)
  else if packet.wValueH = usbDescTypeConfiguration then
    state.sendDescr cfg .activeCfg
  else if packet.wValueH = usbDescTypeString then
    state.sendFound cfg (stringDescriptor packet.wValueL)
  else if packet.wValueH = usbDescTypeHid then
    state.sendFound cfg
      (interfaceDescriptor cfg .fidoCfg .debugCfg packet.wIndexL)
  else if packet.wValueH = usbDescTypeReport then
    state.sendFound cfg
      (interfaceDescriptor cfg .fidoReport .debugReport packet.wIndexL)
  else if packet.wValueH = usbDescTypeDebug then
    (state, 0)
  else
    (state, 0xFF)

/-- `CLEAR_FEATURE`; the device can be woken up, by `CfgDesc[7]`. -/
def clearFeature (packet : SetupPacket) : Nat :=
  if packet.recipient = usbReqRecipDevice then
    if packet.wValue = 0x01 then 0 else 0xFF
  else if packet.recipient = usbReqRecipEndp then
    if packet.wIndexL ∈
        [0x84, 0x04, 0x83, 0x03, 0x82, 0x02, 0x81, (0x01 : UInt8)] then
      0
    else
      0xFF
  else
    0xFF

/-- `SET_FEATURE`; the case of endpoint 1 OUT falls through. -/
def setFeature (packet : SetupPacket) : Nat :=
  if packet.recipient = usbReqRecipDevice then
    if packet.wValue = 0x01 then 0 else 0xFF
  else if packet.recipient = usbReqRecipEndp then
    if packet.wValue = 0x00 then
      if packet.wIndex ∈ [0x84, 0x04, 0x83, 0x03, 0x82, 0x02, 0x81] then
        0
      else
        0xFF
    else
      0xFF
  else
    0xFF

/-- The class and vendor requests. -/
def classRequest
    (cfg : CfgDescriptor)
    (packet : SetupPacket)
    (state : Ep0) : Ep0 × Nat :=
  if packet.bRequest = usbCdcReqTypeGetLineCoding then
    state.sendDescr cfg .lineCoding
  else if packet.bRequest ∈ quietClassRequests then
    (state, 0)
  else
    (state, 0xFF)

/-- The standard requests. -/
def standardRequest
    (cfg : CfgDescriptor)
    (packet : SetupPacket)
    (state : Ep0) : Ep0 × Nat :=
  if packet.bRequest = usbGetDescriptor then
    state.getDescriptor cfg packet
  else if packet.bRequest = usbSetAddress then
    ({ state with setupLen := packet.wValueL.toNat }, 0)
  else if packet.bRequest = usbGetConfiguration then
    ({ state with
        buffer := fun index =>
          if index = 0 then .value state.usbConfig
          else state.buffer index },
      if state.setupLen ≥ 1 then 1 else 0)
  else if packet.bRequest = usbSetConfiguration then
    ({ state with usbConfig := packet.wValueL }, 0)
  else if packet.bRequest = usbGetInterface then
    (state, 0)
  else if packet.bRequest = usbClearFeature then
    (state, clearFeature packet)
  else if packet.bRequest = usbSetFeature then
    (state, setFeature packet)
  else if packet.bRequest = usbGetStatus then
    ({ state with
        buffer := fun index =>
          if index < 2 then .value 0 else state.buffer index },
      if state.setupLen ≥ 2 then 2 else state.setupLen)
  else
    (state, 0xFF)

/-- The end of `UsbEp0SetupHandler`. -/
def finishSetup (result : Ep0 × Nat) : Ep0 :=
  if result.2 = 0xFF then
    { result.1 with setupReq := 0xFF, tRes := .stall }
  else if result.2 ≤ bufEp0Size ∧ result.2 > 0 then
    { result.1 with tLen := result.2, tRes := .ack }
  else
    { result.1 with tLen := 0, tRes := .ack }

/-- The SETUP packet is in the buffer. -/
def received (packet : SetupPacket) (state : Ep0) : Ep0 :=
  { state with
    buffer := fun index =>
      match index with
      | 0 => .value packet.bmRequestType
      | 1 => .value packet.bRequest
      | 2 => .value packet.wValueL
      | 3 => .value packet.wValueH
      | 4 => .value packet.wIndexL
      | 5 => .value packet.wIndexH
      | 6 => .value packet.wLengthL
      | 7 => .value packet.wLengthH
      | _ => state.buffer index }

/-- `UsbEp0SetupHandler`. -/
def setup
    (cfg : CfgDescriptor)
    (packet : SetupPacket)
    (state : Ep0) : Ep0 :=
  let state := state.received packet
  if packet.rxLen = 8 then
    let state :=
      { state with setupLen := packet.wLength, setupReq := packet.bRequest }
    if packet.type = usbReqTypeClass ∨ packet.type = usbReqTypeVendor then
      finishSetup (state.classRequest cfg packet)
    else if packet.type = usbReqTypeStandard then
      finishSetup (state.standardRequest cfg packet)
    else
      finishSetup (state, 0xFF)
  else
    finishSetup (state, 0xFF)

/-- The interrupt after a packet was sent from endpoint 0. -/
def transmitted (state : Ep0) : Ep0 :=
  if state.setupReq = usbGetDescriptor then
    let result := state.upload
    { result.1 with tLen := result.2 }
  else if state.setupReq = usbSetAddress then
    { state with tRes := .nak }
  else
    { state with tLen := 0, tRes := .nak }

/-- The bytes that an IN token gets. -/
def packet (state : Ep0) : List Source :=
  if state.tRes = .ack then
    (List.range state.tLen).map state.buffer
  else
    []

/-- An IN token; only a packet that is sent causes an interrupt. -/
def inToken (state : Ep0) : Ep0 :=
  if state.tRes = .ack then state.transmitted else state

end Ep0

end Handlers

section Runs

/-- What happens on endpoint 0. -/
inductive Token where
  | setup (packet : SetupPacket)
  | inToken

/-- The effect of SETUP packets and IN tokens. -/
def Ep0.run (cfg : CfgDescriptor) (state : Ep0) (tokens : List Token) :
    Ep0 :=
  tokens.foldl
    (fun state token =>
      match token with
      | .setup packet => state.setup cfg packet
      | .inToken => state.inToken)
    state

/-- The bytes that a number of IN tokens get. -/
def Ep0.answer (state : Ep0) : Nat → List Source
  | 0 => []
  | count + 1 => state.packet ++ state.inToken.answer count

/-- A `GET_DESCRIPTOR` request. -/
def SetupPacket.IsGetDescriptor (packet : SetupPacket) : Prop :=
  packet.rxLen = 8 ∧
    packet.type = usbReqTypeStandard ∧
    packet.bRequest = usbGetDescriptor

instance (packet : SetupPacket) : Decidable packet.IsGetDescriptor :=
  inferInstanceAs (Decidable (_ ∧ _ ∧ _))

/-- A class or vendor request for the line coding. -/
def SetupPacket.IsGetLineCoding (packet : SetupPacket) : Prop :=
  packet.rxLen = 8 ∧
    (packet.type = usbReqTypeClass ∨ packet.type = usbReqTypeVendor) ∧
    packet.bRequest = usbCdcReqTypeGetLineCoding

instance (packet : SetupPacket) : Decidable packet.IsGetLineCoding :=
  inferInstanceAs (Decidable (_ ∧ _ ∧ _))

/-- The interfaces that a configuration can have. -/
inductive Interface where
  | cdcCtrl
  | cdcData
  | fido
  | ccid
  | debug
  deriving DecidableEq

/-- The interfaces of the active endpoints; they are numbered from zero on. -/
def interfaces (epConfig : UInt8) : List Interface :=
  (if epConfig &&& ioCdc ≠ 0 then [.cdcCtrl, .cdcData] else []) ++
    (if epConfig &&& ioFido ≠ 0 then [.fido] else []) ++
    (if epConfig &&& ioCcid ≠ 0 then [.ccid] else []) ++
    (if epConfig &&& ioDebug ≠ 0 then [.debug] else [])

/-- Of the interfaces, FIDO and DEBUG are HID devices. -/
def Interface.select (fido debug : Descriptor) : Interface → Option Descriptor
  | .fido => some fido
  | .debug => some debug
  | .cdcCtrl | .cdcData | .ccid => none

/-- The descriptor of a type, given the descriptors of the interface. -/
def SetupPacket.ofType
    (packet : SetupPacket)
    (hid report : Option Descriptor) : Option Descriptor :=
  if packet.wValueH = usbDescTypeDevice then some .dev
  else if packet.wValueH = usbDescTypeConfiguration then some .activeCfg
  else if packet.wValueH = usbDescTypeString then
    stringDescriptor packet.wValueL
  else if packet.wValueH = usbDescTypeHid then hid
  else if packet.wValueH = usbDescTypeReport then report
  else none

/-- The descriptor that a type and an index, or a number of an interface, stand for. -/
def descriptorOf
    (active : UInt8)
    (packet : SetupPacket) : Option Descriptor :=
  let interface := (interfaces active)[packet.wIndexL.toNat]?
  packet.ofType (interface.bind (Interface.select .fidoCfg .debugCfg))
    (interface.bind (Interface.select .fidoReport .debugReport))

/-- The table that a request asks for. -/
def SetupPacket.asked
    (active : UInt8)
    (packet : SetupPacket) : Option Descriptor :=
  if packet.IsGetDescriptor then descriptorOf active packet
  else if packet.IsGetLineCoding then some .lineCoding
  else none

/-- The bytes of a table, each by its place. -/
def Descriptor.bytes
    (cfg : CfgDescriptor)
    (descriptor : Descriptor) : List Source :=
  (List.range (descriptor.size cfg)).map fun offset =>
    .copied { table := some descriptor, offset := offset }

/-- What a request gets is what it asks for. -/
structure Proper
    (active : UInt8)
    (packet : SetupPacket)
    (state : Ep0)
    (count : Nat) : Prop where
  /-- The data stage is the start of the descriptor, or there is none. -/
  start :
    packet.IsGetDescriptor →
      state.tRes = .stall ∨
        state.answer count =
          (((packet.asked active).map
              (Descriptor.bytes (createCfgDescriptor active))).getD []).take
            (min (bufEp0Size * count) packet.wLength)
  /-- Nothing is read from outside of it. -/
  inside :
    ∀ pointer,
      Source.copied pointer ∈ state.answer count →
        ∃ descriptor,
          packet.asked active = some descriptor ∧
            pointer.table = some descriptor ∧
            pointer.offset < descriptor.size (createCfgDescriptor active)

/-- The descriptor types that are not answered and not refused either. -/
def SetupPacket.Unanswered (packet : SetupPacket) : Prop :=
  packet.wValueH = usbDescTypeDeviceQualifier ∨
    packet.wValueH = usbDescTypeDebug

instance (packet : SetupPacket) : Decidable packet.Unanswered :=
  inferInstanceAs (Decidable (_ ∨ _))

/--
A HID or report descriptor of the interface `0xFF`, which is the number that
stands for an interface that is not active.
-/
def SetupPacket.OfNoInterface (active : UInt8) (packet : SetupPacket) : Prop :=
  (packet.wValueH = usbDescTypeHid ∨ packet.wValueH = usbDescTypeReport) ∧
    packet.wIndexL = 0xFF ∧
    (active &&& ioFido = 0 ∨ active &&& ioDebug = 0)

/-- The requests that the handler should refuse and does not. -/
def SetupPacket.Overlooked (active : UInt8) (packet : SetupPacket) : Prop :=
  packet.IsGetDescriptor ∧
    (packet.Unanswered ∨ packet.OfNoInterface active) ∧
    packet.wLength ≠ 0

end Runs

section Answers

variable {cfg : CfgDescriptor} {packet : SetupPacket} {state : Ep0}

/-- FIDO and CCID are never active together. -/
theorem withoutBoth_exclusive (active : UInt8) :
    withoutBoth active &&& ioFido = 0 ∨
      withoutBoth active &&& ioCcid = 0 := by
  rw [withoutBoth]
  by_cases both : active &&& ioFido ≠ 0 ∧ active &&& ioCcid ≠ 0
  · have cleared : ~~~(ioFido ||| ioCcid) &&& ioFido = 0 := by
      decide
    left
    rw [if_pos both, UInt8.and_assoc, cleared, UInt8.and_zero]
  · rw [if_neg both]
    by_contra neither
    exact both (not_or.mp neither)

theorem createCfgDescriptor_size (epConfig : UInt8) :
    (createCfgDescriptor epConfig).size =
      9 + (if epConfig &&& ioCdc ≠ 0 then 66 else 0) +
        (if epConfig &&& ioFido ≠ 0 then 32 else 0) +
        (if epConfig &&& ioCcid ≠ 0 then 77 else 0) +
        (if epConfig &&& ioDebug ≠ 0 then 32 else 0) := by
  unfold createCfgDescriptor
  split_ifs <;> rfl

/-- The configuration descriptor fits into its array. -/
theorem createCfgDescriptor_size_le (resetKeep : UInt8) :
    (createCfgDescriptor (activeEndpoints resetKeep)).size ≤
      maxCfgDescSize := by
  have parts (present : Prop) [Decidable present] (size : Nat) :
      (if present then size else 0) ≤ size := by
    split
    · exact Nat.le_refl _
    · exact Nat.zero_le _
  have cdc := parts (activeEndpoints resetKeep &&& ioCdc ≠ 0) 66
  have fido := parts (activeEndpoints resetKeep &&& ioFido ≠ 0) 32
  have ccid := parts (activeEndpoints resetKeep &&& ioCcid ≠ 0) 77
  have debug := parts (activeEndpoints resetKeep &&& ioDebug ≠ 0) 32
  rw [createCfgDescriptor_size, maxCfgDescSize]
  have exclusive :
      activeEndpoints resetKeep &&& ioFido = 0 ∨
        activeEndpoints resetKeep &&& ioCcid = 0 :=
    withoutBoth_exclusive _
  rcases exclusive with noFido | noCcid
  · rw [if_neg (not_not_intro noFido)]
    omega
  · rw [if_neg (not_not_intro noCcid)]
    omega

/-- The numbers of the handler are those of the interfaces, but for `0xFF`. -/
theorem interface_number
    (active : UInt8)
    {number : UInt8}
    (numbered : number ≠ 0xFF) :
    (number = (createCfgDescriptor active).fidoInterfaceNum ↔
        (interfaces active)[number.toNat]? = some .fido) ∧
      (number = (createCfgDescriptor active).debugInterfaceNum ↔
        (interfaces active)[number.toNat]? = some .debug) := by
  simp only [ne_eq, ← UInt8.toNat_inj] at numbered ⊢
  generalize number.toNat = place at numbered ⊢
  unfold createCfgDescriptor interfaces
  by_cases cdc : active &&& ioCdc = 0 <;>
    by_cases fido : active &&& ioFido = 0 <;>
    by_cases ccid : active &&& ioCcid = 0 <;>
    by_cases debug : active &&& ioDebug = 0 <;>
    simp only [cdc, fido, ccid, debug, ne_eq, not_true_eq_false,
      not_false_eq_true, if_true, if_false] <;>
    rcases place with _ | _ | _ | _ | _ | place <;>
    simp at numbered ⊢ <;>
    exact numbered

/-- Such a number stands for the descriptor of its interface. -/
theorem interfaceDescriptor_eq
    (active : UInt8)
    (fido debug : Descriptor)
    {number : UInt8}
    (numbered : number ≠ 0xFF) :
    interfaceDescriptor (createCfgDescriptor active) fido debug number =
      (interfaces active)[number.toNat]?.bind
        (Interface.select fido debug) := by
  obtain ⟨isFido, isDebug⟩ := interface_number active numbered
  rw [interfaceDescriptor, if_congr isFido rfl rfl, if_congr isDebug rfl rfl]
  cases (interfaces active)[number.toNat]? with
  | none =>
      rfl
  | some interface =>
      cases interface <;> rfl

/-- There are not as many interfaces as numbers. -/
theorem interfaces_length_le (active : UInt8) :
    (interfaces active).length ≤ 5 := by
  unfold interfaces
  split_ifs <;> decide

/-- No interface has the number `0xFF`. -/
theorem interfaces_none (active : UInt8) :
    (interfaces active)[(0xFF : UInt8).toNat]? = none :=
  List.getElem?_eq_none
    (Nat.le_trans (interfaces_length_le active) (by decide))

/-- With both HID interfaces active their numbers are others. -/
theorem interfaceDescriptor_none
    {active : UInt8}
    (fidoActive : active &&& ioFido ≠ 0)
    (debugActive : active &&& ioDebug ≠ 0)
    (fido debug : Descriptor) :
    interfaceDescriptor (createCfgDescriptor active) fido debug 0xFF =
      none := by
  unfold interfaceDescriptor createCfgDescriptor
  simp only [if_pos fidoActive, if_pos debugActive]
  split_ifs <;> first | rfl | contradiction

/-- With one of them inactive there is a descriptor for `0xFF`. -/
theorem interfaceDescriptor_some
    {active : UInt8}
    (inactive : active &&& ioFido = 0 ∨ active &&& ioDebug = 0)
    {fido debug : Descriptor}
    {size : Nat}
    (fidoSize : size ≤ fido.size (createCfgDescriptor active))
    (debugSize : size ≤ debug.size (createCfgDescriptor active)) :
    ∃ descriptor,
      interfaceDescriptor (createCfgDescriptor active) fido debug 0xFF =
          some descriptor ∧
        size ≤ descriptor.size (createCfgDescriptor active) := by
  by_cases isFido : 0xFF = (createCfgDescriptor active).fidoInterfaceNum
  · exact ⟨fido, if_pos isFido, fidoSize⟩
  · have isDebug : 0xFF = (createCfgDescriptor active).debugInterfaceNum := by
      rcases inactive with noFido | noDebug
      · refine absurd ?_ isFido
        unfold createCfgDescriptor
        simp only [noFido, ne_eq, not_true_eq_false, if_false]
        split_ifs <;> rfl
      · unfold createCfgDescriptor
        simp only [noDebug, ne_eq, not_true_eq_false, if_false]
        split_ifs <;> rfl
    exact
      ⟨debug, (if_neg isFido).trans (if_pos isDebug), debugSize⟩

/-- Without an answer, IN tokens get nothing. -/
theorem answer_of_ne_ack
    (silent : state.tRes ≠ .ack)
    (count : Nat) :
    state.answer count = [] := by
  induction count with
  | zero =>
      rfl
  | succ count inductionHypothesis =>
      rw [Ep0.answer, Ep0.packet, if_neg silent, Ep0.inToken,
        if_neg silent, inductionHypothesis]
      rfl

/-- Only descriptors take more than one packet. -/
theorem answer_of_ne_getDescriptor
    (other : state.setupReq ≠ usbGetDescriptor)
    (count : Nat) :
    state.answer (count + 1) = state.packet := by
  rw [Ep0.answer]
  by_cases acks : state.tRes = .ack
  · have silent : state.inToken.tRes ≠ .ack := by
      rw [Ep0.inToken, if_pos acks, Ep0.transmitted, if_neg other]
      split <;> exact Response.noConfusion
    rw [answer_of_ne_ack silent, List.append_nil]
  · have silent : state.inToken.tRes ≠ .ack := by
      rw [Ep0.inToken, if_neg acks]
      exact acks
    rw [answer_of_ne_ack silent, List.append_nil]

/-- A table is being uploaded: `sent` of `total` bytes are in packets. -/
structure Ep0.Uploads
    (descriptor : Descriptor)
    (sent total : Nat)
    (state : Ep0) : Prop where
  acks : state.tRes = .ack
  pDescr :
    state.pDescr = { table := some descriptor, offset := sent + state.tLen }
  setupLen : state.setupLen = total - (sent + state.tLen)
  tLen : state.tLen = min bufEp0Size (total - sent)
  buffer :
    ∀ index,
      index < state.tLen →
        state.buffer index =
          .copied { table := some descriptor, offset := sent + index }

/-- The packet is the next part of the table. -/
theorem Ep0.Uploads.packet_eq
    {descriptor : Descriptor}
    {sent total : Nat}
    (uploads : state.Uploads descriptor sent total) :
    state.packet =
      (List.range (min bufEp0Size (total - sent))).map fun index =>
        .copied { table := some descriptor, offset := sent + index } := by
  rw [Ep0.packet, if_pos uploads.acks, ← uploads.tLen]
  apply List.map_congr_left
  intro index member
  exact uploads.buffer index (List.mem_range.mp member)

/-- Uploading puts the part of the table at `pDescr` into a packet. -/
theorem Ep0.uploads_upload
    {descriptor : Descriptor}
    {sent total : Nat}
    (pDescr : state.pDescr = { table := some descriptor, offset := sent })
    (setupLen : state.setupLen = total - sent) :
    Uploads descriptor sent total
      { state.upload.1 with tLen := state.upload.2, tRes := .ack } := by
  simp only [upload, pDescr, setupLen, Pointer.add]
  exact {
    acks := rfl
    pDescr := rfl
    setupLen := Nat.sub_sub _ _ _
    tLen := rfl
    buffer := fun index inPacket => if_pos inPacket }

theorem Ep0.setupReq_inToken (state : Ep0) :
    state.inToken.setupReq = state.setupReq := by
  unfold inToken transmitted
  split_ifs <;> rfl

/-- After a packet the next part of the table is in the buffer. -/
theorem Ep0.Uploads.inToken
    {descriptor : Descriptor}
    {sent total : Nat}
    (uploads : state.Uploads descriptor sent total)
    (isGetDescriptor : state.setupReq = usbGetDescriptor) :
    state.inToken.Uploads descriptor
      (sent + min bufEp0Size (total - sent)) total := by
  have next :=
    Ep0.uploads_upload uploads.pDescr uploads.setupLen
  rw [uploads.tLen] at next
  have acks : state.upload.1.tRes = .ack := uploads.acks
  rw [Ep0.inToken, if_pos uploads.acks, Ep0.transmitted,
    if_pos isGetDescriptor]
  rw [← acks] at next
  exact next

/-- Where the packets of a table end. -/
theorem Ep0.Uploads.answer_eq
    {descriptor : Descriptor}
    {sent total : Nat}
    (uploads : state.Uploads descriptor sent total)
    (isGetDescriptor : state.setupReq = usbGetDescriptor)
    (count : Nat) :
    state.answer count =
      (List.range (min (bufEp0Size * count) (total - sent))).map
        fun index =>
          .copied { table := some descriptor, offset := sent + index } := by
  induction count generalizing state sent with
  | zero =>
      rw [Nat.mul_zero, Nat.zero_min]
      rfl
  | succ count inductionHypothesis =>
      have total_eq :
          min (bufEp0Size * (count + 1)) (total - sent) =
            min bufEp0Size (total - sent) +
              min (bufEp0Size * count)
                (total - (sent + min bufEp0Size (total - sent))) := by
        rw [Nat.mul_succ]
        omega
      rw [Ep0.answer, uploads.packet_eq,
        inductionHypothesis (uploads.inToken isGetDescriptor)
          ((Ep0.setupReq_inToken state).trans isGetDescriptor),
        total_eq, List.range_add,
        List.map_append, List.map_map]
      simp only [Function.comp_def, Nat.add_assoc]

/-- The start of a table, as it is uploaded. -/
theorem take_bytes
    (cfg : CfgDescriptor)
    (descriptor : Descriptor)
    (packets length : Nat) :
    (descriptor.bytes cfg).take (min packets length) =
      (List.range (min packets (min length (descriptor.size cfg)))).map
        fun offset =>
          .copied { table := some descriptor, offset := 0 + offset } := by
  rw [Descriptor.bytes, ← List.map_take, List.take_range]
  simp only [Nat.zero_add, Nat.min_assoc]

end Answers

section Setup

variable {cfg : CfgDescriptor} {packet : SetupPacket} {state : Ep0}

theorem finishSetup_of_le
    {result : Ep0 × Nat}
    (fits : result.2 ≤ bufEp0Size) :
    Ep0.finishSetup result =
      { result.1 with tLen := result.2, tRes := .ack } := by
  have noError : result.2 ≠ 0xFF :=
    Nat.ne_of_lt (Nat.lt_of_le_of_lt fits (by decide))
  rw [Ep0.finishSetup, if_neg noError]
  split
  · rfl
  · rename_i empty
    have zero : result.2 = 0 := by
      by_contra nonzero
      exact empty ⟨fits, Nat.pos_of_ne_zero nonzero⟩
    rw [zero]

/-- A refused request stalls. -/
theorem finishSetup_error (state : Ep0) :
    Ep0.finishSetup (state, 0xFF) =
      { state with setupReq := 0xFF, tRes := .stall } :=
  if_pos rfl

theorem upload_snd_le (state : Ep0) : state.upload.2 ≤ bufEp0Size := by
  rw [Ep0.upload]
  split
  · exact Nat.le_refl _
  · rename_i less
    exact Nat.le_of_lt (Nat.not_le.mp less)

/-- A table that is sent is uploaded as far as it was asked for. -/
theorem uploads_sendDescr
    (descriptor : Descriptor) :
    (Ep0.finishSetup (state.sendDescr cfg descriptor)).Uploads descriptor 0
      (min state.setupLen (descriptor.size cfg)) := by
  rw [Ep0.sendDescr, finishSetup_of_le (upload_snd_le _)]
  exact Ep0.uploads_upload rfl rfl

/-- The table that the handler finds for a type and an index or interface. -/
def foundDescriptor
    (cfg : CfgDescriptor)
    (packet : SetupPacket) : Option Descriptor :=
  packet.ofType
    (interfaceDescriptor cfg .fidoCfg .debugCfg packet.wIndexL)
    (interfaceDescriptor cfg .fidoReport .debugReport packet.wIndexL)

/-- `GET_DESCRIPTOR` sends what is found, but for two types. -/
theorem getDescriptor_eq
    (cfg : CfgDescriptor)
    (packet : SetupPacket)
    (state : Ep0) :
    state.getDescriptor cfg packet =
      if packet.Unanswered then
        (state, 0)
      else
        state.sendFound cfg (foundDescriptor cfg packet) := by
  rw [Ep0.getDescriptor, foundDescriptor, SetupPacket.ofType]
  unfold SetupPacket.Unanswered
  by_cases dev : packet.wValueH = usbDescTypeDevice
  · simp only [dev]
    rfl
  by_cases qualifier : packet.wValueH = usbDescTypeDeviceQualifier
  · simp only [qualifier]
    rfl
  by_cases configuration : packet.wValueH = usbDescTypeConfiguration
  · simp only [configuration]
    rfl
  by_cases string : packet.wValueH = usbDescTypeString
  · simp only [string]
    rfl
  by_cases hid : packet.wValueH = usbDescTypeHid
  · simp only [hid]
    rfl
  by_cases report : packet.wValueH = usbDescTypeReport
  · simp only [report]
    rfl
  by_cases debug : packet.wValueH = usbDescTypeDebug
  · simp only [debug]
    rfl
  · simp only [dev, qualifier, configuration, string, hid, report, debug,
      if_false, or_self]
    rfl

/-- The handler finds what a request stands for, unless it is for no interface. -/
theorem foundDescriptor_eq
    {active : UInt8}
    (known : ¬ packet.OfNoInterface active) :
    foundDescriptor (createCfgDescriptor active) packet =
      descriptorOf active packet := by
  by_cases numbered : packet.wIndexL = 0xFF
  case neg =>
    rw [foundDescriptor, interfaceDescriptor_eq active _ _ numbered,
      interfaceDescriptor_eq active _ _ numbered]
    rfl
  by_cases ofInterface :
      packet.wValueH = usbDescTypeHid ∨ packet.wValueH = usbDescTypeReport
  case neg =>
    obtain ⟨notHid, notReport⟩ := not_or.mp ofInterface
    simp only [foundDescriptor, descriptorOf, SetupPacket.ofType,
      if_neg notHid, if_neg notReport]
  obtain ⟨fidoActive, debugActive⟩ :=
    not_or.mp fun inactive => known ⟨ofInterface, numbered, inactive⟩
  rw [foundDescriptor, descriptorOf, numbered, interfaces_none,
    interfaceDescriptor_none fidoActive debugActive,
    interfaceDescriptor_none fidoActive debugActive]
  rfl

/-- The state in which the handler looks at the request. -/
def Ep0.looking (packet : SetupPacket) (state : Ep0) : Ep0 :=
  { state.received packet with
    setupLen := packet.wLength
    setupReq := packet.bRequest }

theorem setup_getDescriptor
    (isGet : packet.IsGetDescriptor) :
    state.setup cfg packet =
      Ep0.finishSetup ((state.looking packet).getDescriptor cfg packet) := by
  obtain ⟨whole, standard, isGet⟩ := isGet
  have notClass :
      ¬ (packet.type = usbReqTypeClass ∨
        packet.type = usbReqTypeVendor) := by
    rw [standard]
    decide
  rw [Ep0.setup, if_pos whole, if_neg notClass, if_pos standard,
    Ep0.standardRequest, if_pos isGet]
  rfl

/-- A handler that sends nothing leaves nothing to an IN token. -/
theorem packet_finishSetup
    {result : Ep0 × Nat}
    (quiet : result.2 = 0 ∨ result.2 = 0xFF) :
    (Ep0.finishSetup result).packet = [] := by
  rcases quiet with zero | error
  · rw [finishSetup_of_le (by rw [zero]; exact Nat.zero_le _), zero]
    rfl
  · rw [Ep0.finishSetup, if_pos error]
    rfl

theorem clearFeature_quiet (packet : SetupPacket) :
    Ep0.clearFeature packet = 0 ∨ Ep0.clearFeature packet = 0xFF := by
  unfold Ep0.clearFeature
  split_ifs <;> decide

theorem setFeature_quiet (packet : SetupPacket) :
    Ep0.setFeature packet = 0 ∨ Ep0.setFeature packet = 0xFF := by
  unfold Ep0.setFeature
  split_ifs <;> decide

/-- The request after the handler is the one it has looked at, or none. -/
theorem setupReq_finishSetup (result : Ep0 × Nat) :
    (Ep0.finishSetup result).setupReq = result.1.setupReq ∨
      (Ep0.finishSetup result).setupReq = 0xFF := by
  unfold Ep0.finishSetup
  split_ifs
  · exact .inr rfl
  · exact .inl rfl
  · exact .inl rfl

/-- What a handler other than for descriptors gives to an IN token. -/
structure Harmless (packet : SetupPacket) (state : Ep0) : Prop where
  notGetDescriptor : state.setupReq ≠ usbGetDescriptor
  copies :
    ∀ pointer,
      Source.copied pointer ∈ state.packet →
        packet.IsGetLineCoding ∧
          pointer.table = some .lineCoding ∧
          pointer.offset < 7

theorem harmless_quiet
    {result : Ep0 × Nat}
    (quiet : result.2 = 0 ∨ result.2 = 0xFF)
    (other : result.1.setupReq ≠ usbGetDescriptor ∨ result.2 = 0xFF) :
    Harmless packet (Ep0.finishSetup result) where
  notGetDescriptor := by
    rcases other with other | error
    · rcases setupReq_finishSetup result with same | none
      · rw [same]
        exact other
      · rw [none]
        decide
    · rw [Ep0.finishSetup, if_pos error]
      exact (by decide : (0xFF : UInt8) ≠ usbGetDescriptor)
  copies := by
    intro pointer member
    rw [packet_finishSetup quiet] at member
    cases member

/-- The bytes of a request that writes them itself are no copies. -/
theorem harmless_values
    {result : Ep0 × Nat}
    (fits : result.2 ≤ bufEp0Size)
    (other : result.1.setupReq ≠ usbGetDescriptor)
    (values :
      ∀ index, index < result.2 → ∃ byte, result.1.buffer index = .value byte) :
    Harmless packet (Ep0.finishSetup result) := by
  rw [finishSetup_of_le fits]
  refine ⟨other, ?_⟩
  intro pointer member
  obtain ⟨index, inPacket, copied⟩ := List.mem_map.mp member
  obtain ⟨byte, value⟩ := values index (List.mem_range.mp inPacket)
  have same : result.1.buffer index = .copied pointer := copied
  rw [value] at same
  cases same

/-- The line coding is sent in one packet. -/
theorem harmless_lineCoding
    (isGet : packet.IsGetLineCoding)
    (asked : state.setupReq = packet.bRequest) :
    Harmless packet
      (Ep0.finishSetup (state.sendDescr cfg .lineCoding)) := by
  have uploads := @uploads_sendDescr cfg state .lineCoding
  refine ⟨?_, ?_⟩
  · have request :
        (Ep0.finishSetup (state.sendDescr cfg .lineCoding)).setupReq =
          packet.bRequest := by
      rw [Ep0.sendDescr, finishSetup_of_le (upload_snd_le _)]
      exact asked
    rw [request, isGet.2.2]
    decide
  · intro pointer member
    rw [uploads.packet_eq] at member
    obtain ⟨index, inPacket, place⟩ := List.mem_map.mp member
    cases place
    have inTable := List.mem_range.mp inPacket
    have size : Descriptor.size cfg .lineCoding = 7 := rfl
    rw [size] at inTable
    exact ⟨isGet, rfl, by simp only; omega⟩

/-- Requests that are not for descriptors do not go beyond the line coding. -/
theorem harmless_setup
    (other : ¬ packet.IsGetDescriptor)
    (state : Ep0) :
    Harmless packet (state.setup cfg packet) := by
  rw [Ep0.setup]
  by_cases whole : packet.rxLen = 8
  case neg =>
    rw [if_neg whole]
    exact harmless_quiet (.inr rfl) (.inr rfl)
  rw [if_pos whole]
  change
    Harmless packet
      (if packet.type = usbReqTypeClass ∨
          packet.type = usbReqTypeVendor then
        Ep0.finishSetup ((state.looking packet).classRequest cfg packet)
      else if packet.type = usbReqTypeStandard then
        Ep0.finishSetup
          ((state.looking packet).standardRequest cfg packet)
      else
        Ep0.finishSetup (state.looking packet, 0xFF))
  have asked : (state.looking packet).setupReq = packet.bRequest := rfl
  by_cases isClass :
      packet.type = usbReqTypeClass ∨ packet.type = usbReqTypeVendor
  · rw [if_pos isClass, Ep0.classRequest]
    by_cases lineCoding : packet.bRequest = usbCdcReqTypeGetLineCoding
    · rw [if_pos lineCoding]
      exact harmless_lineCoding ⟨whole, isClass, lineCoding⟩ asked
    · rw [if_neg lineCoding]
      by_cases isQuiet : packet.bRequest ∈ quietClassRequests
      · rw [if_pos isQuiet]
        refine harmless_quiet (.inl rfl) (.inl ?_)
        intro isGet
        rw [← asked, isGet] at isQuiet
        exact absurd isQuiet (by decide)
      · rw [if_neg isQuiet]
        exact harmless_quiet (.inr rfl) (.inr rfl)
  rw [if_neg isClass]
  by_cases standard : packet.type = usbReqTypeStandard
  case neg =>
    rw [if_neg standard]
    exact harmless_quiet (.inr rfl) (.inr rfl)
  have notGet : packet.bRequest ≠ usbGetDescriptor := fun isGet =>
    other ⟨whole, standard, isGet⟩
  rw [if_pos standard, Ep0.standardRequest, if_neg notGet]
  by_cases address : packet.bRequest = usbSetAddress
  · rw [if_pos address]
    exact harmless_quiet (.inl rfl) (.inl notGet)
  rw [if_neg address]
  by_cases getConfiguration : packet.bRequest = usbGetConfiguration
  · rw [if_pos getConfiguration]
    have short :
        (if (state.looking packet).setupLen ≥ 1 then 1 else 0) ≤ 1 := by
      split <;> decide
    exact
      harmless_values (Nat.le_trans short (by decide)) notGet
        fun index inPacket => by
          obtain rfl :=
            Nat.lt_one_iff.mp (Nat.lt_of_lt_of_le inPacket short)
          exact ⟨(state.looking packet).usbConfig, rfl⟩
  rw [if_neg getConfiguration]
  by_cases setConfiguration : packet.bRequest = usbSetConfiguration
  · rw [if_pos setConfiguration]
    exact harmless_quiet (.inl rfl) (.inl notGet)
  rw [if_neg setConfiguration]
  by_cases getInterface : packet.bRequest = usbGetInterface
  · rw [if_pos getInterface]
    exact harmless_quiet (.inl rfl) (.inl notGet)
  rw [if_neg getInterface]
  by_cases isClear : packet.bRequest = usbClearFeature
  · rw [if_pos isClear]
    exact harmless_quiet (clearFeature_quiet packet) (.inl notGet)
  rw [if_neg isClear]
  by_cases isSet : packet.bRequest = usbSetFeature
  · rw [if_pos isSet]
    exact harmless_quiet (setFeature_quiet packet) (.inl notGet)
  rw [if_neg isSet]
  by_cases getStatus : packet.bRequest = usbGetStatus
  · rw [if_pos getStatus]
    have short :
        (if (state.looking packet).setupLen ≥ 2 then 2
          else (state.looking packet).setupLen) ≤ 2 := by
      split <;> omega
    exact
      harmless_values (Nat.le_trans short (by decide)) notGet
        fun index inPacket =>
          ⟨0, if_pos (Nat.lt_of_lt_of_le inPacket short)⟩
  · rw [if_neg getStatus]
    exact harmless_quiet (.inr rfl) (.inr rfl)

/-- A request that is not for a descriptor is answered properly. -/
theorem proper_of_not_getDescriptor
    (active : UInt8)
    (other : ¬ packet.IsGetDescriptor)
    (state : Ep0)
    (count : Nat) :
    Proper active packet (state.setup (createCfgDescriptor active) packet)
      count where
  start := fun isGet => absurd isGet other
  inside := by
    intro pointer member
    have harmless :=
      @harmless_setup (createCfgDescriptor active) packet other state
    cases count with
    | zero =>
        cases member
    | succ count =>
        rw [answer_of_ne_getDescriptor harmless.notGetDescriptor] at member
        obtain ⟨lineCoding, table, offset⟩ :=
          harmless.copies pointer member
        refine ⟨.lineCoding, ?_, table, offset⟩
        rw [SetupPacket.asked, if_neg other, if_pos lineCoding]

/-- There is no descriptor for a request that should be refused. -/
theorem descriptorOf_overlooked
    {active : UInt8}
    (overlooked : packet.Unanswered ∨ packet.OfNoInterface active) :
    descriptorOf active packet = none := by
  rcases overlooked with (qualifier | debug) | ⟨hid | report, number, _⟩
  · rw [descriptorOf, SetupPacket.ofType, qualifier]
    rfl
  · rw [descriptorOf, SetupPacket.ofType, debug]
    rfl
  · rw [descriptorOf, SetupPacket.ofType, hid, number, interfaces_none]
    rfl
  · rw [descriptorOf, SetupPacket.ofType, report, number, interfaces_none]
    rfl

/-- The table that is found is uploaded as far as it was asked for. -/
theorem uploads_found
    {descriptor : Descriptor}
    (isGet : packet.IsGetDescriptor)
    (handled :
      state.setup cfg packet =
        Ep0.finishSetup ((state.looking packet).sendDescr cfg descriptor)) :
    (state.setup cfg packet).Uploads descriptor 0
        (min packet.wLength (descriptor.size cfg)) ∧
      (state.setup cfg packet).setupReq = usbGetDescriptor := by
  rw [handled]
  refine
    ⟨@uploads_sendDescr cfg (state.looking packet) descriptor, ?_⟩
  rw [Ep0.sendDescr, finishSetup_of_le (upload_snd_le _)]
  exact isGet.2.2

/-- A request for a descriptor that is sent is answered properly. -/
theorem proper_of_getDescriptor
    {active : UInt8}
    (isGet : packet.IsGetDescriptor)
    (answered : ¬ packet.Unanswered)
    (known : ¬ packet.OfNoInterface active)
    (state : Ep0)
    (count : Nat) :
    Proper active packet (state.setup (createCfgDescriptor active) packet)
      count := by
  have handled :=
    @setup_getDescriptor (createCfgDescriptor active) packet state isGet
  rw [getDescriptor_eq, if_neg answered, foundDescriptor_eq known] at handled
  cases found : descriptorOf active packet with
  | none =>
      rw [found, Ep0.sendFound, finishSetup_error] at handled
      have stalls :
          (state.setup (createCfgDescriptor active) packet).tRes = .stall := by
        rw [handled]
      have silent :
          (state.setup (createCfgDescriptor active) packet).tRes ≠ .ack := by
        rw [stalls]
        exact Response.noConfusion
      refine ⟨fun _ => .inl stalls, ?_⟩
      intro pointer member
      rw [answer_of_ne_ack silent] at member
      cases member
  | some descriptor =>
      rw [found, Ep0.sendFound] at handled
      have asked : packet.asked active = some descriptor := by
        rw [SetupPacket.asked, if_pos isGet, found]
      obtain ⟨uploads, request⟩ :=
        @uploads_found _ _ state _ isGet handled
      have answer := uploads.answer_eq request count
      rw [Nat.sub_zero, ← take_bytes] at answer
      refine ⟨fun _ => .inr ?_, ?_⟩
      · rw [asked]
        exact answer
      · intro pointer member
        rw [answer] at member
        obtain ⟨offset, inTable, place⟩ :=
          List.mem_map.mp (List.mem_of_mem_take member)
        cases place
        exact ⟨descriptor, asked, rfl, List.mem_range.mp inTable⟩

end Setup

section Overlooked

variable {cfg : CfgDescriptor} {packet : SetupPacket}

/-- When nothing is left to upload, IN tokens get nothing. -/
theorem answer_of_nothing_left
    {state : Ep0}
    (isGetDescriptor : state.setupReq = usbGetDescriptor)
    (tLen : state.tLen = 0)
    (setupLen : state.setupLen = 0)
    (count : Nat) :
    state.answer count = [] := by
  induction count generalizing state with
  | zero =>
      rfl
  | succ count inductionHypothesis =>
      have nothing : state.packet = [] := by
        rw [Ep0.packet, tLen]
        split <;> rfl
      rw [Ep0.answer, nothing, List.nil_append]
      apply inductionHypothesis
      · exact (Ep0.setupReq_inToken state).trans isGetDescriptor
      · unfold Ep0.inToken Ep0.transmitted
        rw [if_pos isGetDescriptor, Ep0.upload, setupLen]
        split
        · rfl
        · exact tLen
      · unfold Ep0.inToken Ep0.transmitted
        rw [if_pos isGetDescriptor, Ep0.upload, setupLen]
        split
        · rfl
        · exact setupLen

/-- The second IN token after an unanswered request gets stale bytes. -/
theorem answer_unanswered
    (isGet : packet.IsGetDescriptor)
    (unanswered : packet.Unanswered)
    (wanted : packet.wLength ≠ 0)
    (state : Ep0) :
    (state.setup cfg packet).answer 2 ≠ [] := by
  have handled := @setup_getDescriptor cfg packet state isGet
  rw [getDescriptor_eq, if_pos unanswered,
    finishSetup_of_le (Nat.zero_le _)] at handled
  have acks : (state.setup cfg packet).tRes = .ack := by
    rw [handled]
  have request : (state.setup cfg packet).setupReq = usbGetDescriptor := by
    rw [handled]
    exact isGet.2.2
  have setupLen : (state.setup cfg packet).setupLen = packet.wLength := by
    rw [handled]
    rfl
  have next :
      (state.setup cfg packet).inToken.packet.length =
        (state.setup cfg packet).upload.2 := by
    have still : (state.setup cfg packet).upload.1.tRes = .ack := acks
    rw [Ep0.inToken, if_pos acks, Ep0.transmitted, if_pos request,
      Ep0.packet, if_pos still, List.length_map, List.length_range]
  have some : 0 < (state.setup cfg packet).upload.2 := by
    have positive := Nat.pos_of_ne_zero wanted
    simp only [Ep0.upload, setupLen]
    split
    · decide
    · exact positive
  rw [← next] at some
  rw [Ep0.answer, Ep0.answer]
  intro nothing
  have empty :=
    (List.append_eq_nil_iff.mp (List.append_eq_nil_iff.mp nothing).2).1
  rw [empty] at some
  exact absurd some (Nat.lt_irrefl 0)

/-- A request for no interface gets the descriptor of another one. -/
theorem answer_ofNoInterface
    {active : UInt8}
    (isGet : packet.IsGetDescriptor)
    (unknown : packet.OfNoInterface active)
    (wanted : packet.wLength ≠ 0)
    (state : Ep0) :
    (state.setup (createCfgDescriptor active) packet).answer 1 ≠ [] := by
  obtain ⟨descriptor, found, nonempty⟩ :
      ∃ descriptor,
        foundDescriptor (createCfgDescriptor active) packet =
            some descriptor ∧
          1 ≤ descriptor.size (createCfgDescriptor active) := by
    obtain ⟨hid | report, number, inactive⟩ := unknown
    · rw [foundDescriptor, SetupPacket.ofType, hid, number]
      exact
        interfaceDescriptor_some inactive (Nat.succ_pos 8) (Nat.succ_pos 8)
    · rw [foundDescriptor, SetupPacket.ofType, report, number]
      exact
        interfaceDescriptor_some inactive (Nat.succ_pos 46) (Nat.succ_pos 33)
  have answered : ¬ packet.Unanswered := by
    rintro (qualifier | debug)
    · rcases unknown.1 with hid | report
      · exact absurd (qualifier.symm.trans hid) (by decide)
      · exact absurd (qualifier.symm.trans report) (by decide)
    · rcases unknown.1 with hid | report
      · exact absurd (debug.symm.trans hid) (by decide)
      · exact absurd (debug.symm.trans report) (by decide)
  have handled :=
    @setup_getDescriptor (createCfgDescriptor active) packet state isGet
  rw [getDescriptor_eq, if_neg answered, found] at handled
  obtain ⟨uploads, request⟩ := uploads_found isGet handled
  have answer := uploads.answer_eq request 1
  rw [Nat.mul_one, Nat.sub_zero] at answer
  rw [answer]
  intro nothing
  have none := List.range_eq_nil.mp (List.map_eq_nil_iff.mp nothing)
  have buffer : 0 < bufEp0Size := by decide
  omega

/-- A request that should be refused is not answered properly. -/
theorem not_proper_of_overlooked
    {active : UInt8}
    (overlooked : packet.Overlooked active)
    (state : Ep0) :
    ∃ count,
      ¬ Proper active packet (state.setup (createCfgDescriptor active) packet)
        count := by
  obtain ⟨isGet, noDescriptor, wanted⟩ := overlooked
  have nothing : packet.asked active = none := by
    rw [SetupPacket.asked, if_pos isGet, descriptorOf_overlooked noDescriptor]
  obtain ⟨count, gets⟩ :
      ∃ count,
        (state.setup (createCfgDescriptor active) packet).answer count ≠ [] := by
    rcases noDescriptor with unanswered | unknown
    · exact ⟨2, answer_unanswered isGet unanswered wanted state⟩
    · exact ⟨1, answer_ofNoInterface isGet unknown wanted state⟩
  refine ⟨count, fun proper => gets ?_⟩
  rcases proper.start isGet with stalls | start
  · -- an endpoint that stalls sends nothing
    apply answer_of_ne_ack
    rw [stalls]
    exact Response.noConfusion
  · rw [start, nothing]
    exact List.take_nil

/-- With nothing asked for, a request gets nothing. -/
theorem proper_of_not_wanted
    {active : UInt8}
    (isGet : packet.IsGetDescriptor)
    (unwanted : packet.wLength = 0)
    (state : Ep0)
    (count : Nat) :
    Proper active packet (state.setup (createCfgDescriptor active) packet)
      count := by
  have nothing :
      (state.setup (createCfgDescriptor active) packet).tRes = .stall ∨
        (state.setup (createCfgDescriptor active) packet).answer count = [] := by
    have handled :=
      @setup_getDescriptor (createCfgDescriptor active) packet state isGet
    rw [getDescriptor_eq] at handled
    by_cases unanswered : packet.Unanswered
    · rw [if_pos unanswered, finishSetup_of_le (Nat.zero_le _)] at handled
      right
      apply answer_of_nothing_left
      · rw [handled]
        exact isGet.2.2
      · rw [handled]
      · rw [handled]
        exact unwanted
    · rw [if_neg unanswered] at handled
      cases found : foundDescriptor (createCfgDescriptor active) packet with
      | none =>
          rw [found, Ep0.sendFound, finishSetup_error] at handled
          left
          rw [handled]
      | some descriptor =>
          rw [found, Ep0.sendFound] at handled
          obtain ⟨uploads, request⟩ := uploads_found isGet handled
          right
          rw [uploads.answer_eq request count, unwanted, Nat.zero_min,
            Nat.zero_sub, Nat.min_zero]
          rfl
  refine ⟨fun _ => nothing.imp_right fun nothing => ?_, ?_⟩
  · rw [nothing, unwanted, Nat.min_zero, List.take_zero]
  · intro pointer member
    rcases nothing with stalls | nothing
    · rw [answer_of_ne_ack (by rw [stalls]; exact Response.noConfusion)]
        at member
      cases member
    · rw [nothing] at member
      cases member

/-- A request is answered properly unless it should have been refused. -/
theorem proper_iff (active : UInt8) (packet : SetupPacket) (state : Ep0) :
    (∀ count,
        Proper active packet (state.setup (createCfgDescriptor active) packet)
          count) ↔
      ¬ packet.Overlooked active := by
  constructor
  · intro proper overlooked
    obtain ⟨count, improper⟩ := not_proper_of_overlooked overlooked state
    exact improper (proper count)
  · intro answered count
    by_cases isGet : packet.IsGetDescriptor
    case neg =>
      exact proper_of_not_getDescriptor active isGet state count
    by_cases unwanted : packet.wLength = 0
    · exact proper_of_not_wanted isGet unwanted state count
    · obtain ⟨notUnanswered, known⟩ :=
        not_or.mp fun noDescriptor => answered ⟨isGet, noDescriptor, unwanted⟩
      exact proper_of_getDescriptor isGet notUnanswered known state count

/--
Control reads: after any SETUP packets and IN tokens, what a request gets is the
start of the descriptor that it asks for, and nothing is read from outside of
it, if and only if the request is not for one of the two unanswered types or for
an interface `0xFF` that one of the HID interfaces is mistaken for.
-/
theorem control_reads_iff
    (resetKeep : UInt8)
    (earlier : List Token)
    (packet : SetupPacket) :
    (createCfgDescriptor (activeEndpoints resetKeep)).size ≤
        maxCfgDescSize ∧
      ((∀ count,
          Proper (activeEndpoints resetKeep) packet
            (Ep0.run (createCfgDescriptor (activeEndpoints resetKeep))
              .initial (earlier ++ [.setup packet]))
            count) ↔
        ¬ packet.Overlooked (activeEndpoints resetKeep)) := by
  refine ⟨createCfgDescriptor_size_le resetKeep, ?_⟩
  rw [Ep0.run, List.foldl_append]
  exact proper_iff _ _ _

/-- `GET_DESCRIPTOR` for the device qualifier. -/
def qualifierRequest : SetupPacket where
  rxLen := 8
  bmRequestType := 0x80
  bRequest := usbGetDescriptor
  wValueL := 0
  wValueH := usbDescTypeDeviceQualifier
  wIndexL := 0
  wIndexH := 0
  wLengthL := 10
  wLengthH := 0

/-- A second IN token after it reads ten bytes through the null pointer. -/
theorem control_reads_counterexample :
    ¬ Proper (activeEndpoints 0) qualifierRequest
      (Ep0.run (createCfgDescriptor (activeEndpoints 0)) .initial
        [.setup qualifierRequest])
      2 := by
  intro proper
  have stale :
      Source.copied { table := none, offset := 0 } ∈
        (Ep0.run (createCfgDescriptor (activeEndpoints 0)) .initial
          [.setup qualifierRequest]).answer 2 := by
    decide
  obtain ⟨descriptor, _, table, _⟩ := proper.inside _ stale
  cases table

end Overlooked

end TKey.Ch552
