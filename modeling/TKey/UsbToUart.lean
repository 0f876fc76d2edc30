import TKey.Ch552

namespace TKey.Ch552

open ByteMemory

/-!
# Packets of the host on the UART

What the controller sends to the FPGA are well-formed packets of the USB mode
protocol, and every packet that an endpoint accepts is among them, as long as
no packet comes that the handlers of endpoints 3 and 4 or the header for
endpoint 3 overlook.
-/

section Packets

/-- The stage that forwards the packets of an endpoint. -/
def Endpoint.stage : Endpoint → Stage
  | .ep2 => .ep2
  | .ep3 => .ep3
  | .ep4 => .ep4

/-- The endpoint whose packets a stage forwards. -/
def Stage.endpoint : Stage → Option Endpoint
  | .ep2 => some .ep2
  | .ep3 => some .ep3
  | .ep4 => some .ep4
  | _ => none

/-- The mode of the packets of an endpoint. -/
def Endpoint.mode (active : UInt8) : Endpoint → UInt8
  | .ep2 => ioCdc
  | .ep3 => if active &&& ioFido ≠ 0 then ioFido else ioCcid
  | .ep4 => ioDebug

/-- The packet that an endpoint has received. -/
def OutEndpoint.packet (endpoint : OutEndpoint) (mode : UInt8) : Packet where
  mode := mode
  payload := read endpoint.bufferRx 0 endpoint.usbEpByteCount.toNat
  short := by
    rw [length_read]
    exact Nat.le_of_lt_succ (UInt8.toNat_lt _)

/-- What has been received and not yet been forwarded. -/
def OutEndpoint.pending (endpoint : OutEndpoint) : List (List UInt8) :=
  if endpoint.usbEpByteCount = 0 then
    []
  else
    [read endpoint.bufferRx 0 endpoint.usbEpByteCount.toNat]

/-- The payloads of an endpoint, without empty ones. -/
def payloadsOf (ep : Endpoint) (packets : List (Endpoint × List UInt8)) :
    List (List UInt8) :=
  packets.filterMap fun packet =>
    if packet.1 = ep ∧ packet.2 ≠ [] then some packet.2 else none

/-- A packet with the endpoint that it came from, as a payload. -/
def payloads (packets : List (Endpoint × Packet)) :
    List (Endpoint × List UInt8) :=
  packets.map fun packet => (packet.1, packet.2.payload)

end Packets

section Runs

variable (active : UInt8)

/-- The packet of the host that is accepted in an event. -/
def Chip.accepts (chip : Chip) : Event → List (Endpoint × List UInt8)
  | .outToken ep togOk packet =>
      if (chip.outs ep).acks ∧ togOk then [(ep, packet.data)] else []
  | _ => []

/-- The packets of the host that are accepted in a run. -/
def Chip.accepted : Chip → List Event → List (Endpoint × List UInt8)
  | _, [] => []
  | chip, event :: events =>
      chip.accepts event ++ (chip.step active event).accepted events

/-- The packet that is forwarded in an event. -/
def Chip.forwards (chip : Chip) : Event → List (Endpoint × Packet)
  | .main =>
      match chip.stage.endpoint with
      | some ep =>
          if chip.resetting ∨ (chip.outs ep).usbEpByteCount = 0 then
            []
          else
            [(ep, (chip.outs ep).packet (ep.mode active))]
      | none => []
  | _ => []

/-- The packets that are forwarded in a run. -/
def Chip.forwarded : Chip → List Event → List (Endpoint × Packet)
  | _, [] => []
  | chip, event :: events =>
      chip.forwards active event ++
        (chip.step active event).forwarded events

/-- A packet that the firmware does not overlook. -/
def Regular (ep : Endpoint) (data : List UInt8) : Prop :=
  match ep with
  | .ep2 => True
  | .ep3 =>
      data ≠ [] ∧ (active &&& ioFido ≠ 0 ∨ active &&& ioCcid ≠ 0)
  | .ep4 => data ≠ []

/-- All accepted packets are regular. -/
def Chip.AcceptsRegular (chip : Chip) (events : List Event) : Prop :=
  ∀ packet, packet ∈ chip.accepted active events →
    Regular active packet.1 packet.2

/--
The packets of the host are on the UART, one after the other; `forwarded` are
those that have been sent.
-/
structure Chip.Forwards
    (chip : Chip)
    (accepted : List (Endpoint × List UInt8))
    (forwarded : List (Endpoint × Packet)) : Prop where
  tx : chip.tx = wire (forwarded.map Prod.snd)
  regular :
    ∀ packet, packet ∈ forwarded →
      packet.2.mode = packet.1.mode active ∧ packet.2.payload ≠ []
  inOrder :
    ∀ ep,
      payloadsOf ep accepted =
        payloadsOf ep (payloads forwarded) ++ (chip.outs ep).pending
  acks : ∀ ep, (chip.outs ep).acks ↔ (chip.outs ep).pending = []

end Runs

section Steps

variable {active : UInt8}

/-- The header that the source sends for an endpoint. -/
def Endpoint.header (active : UInt8) : Endpoint → List UInt8
  | .ep2 => [ioCdc]
  | .ep3 =>
      if active &&& ioFido ≠ 0 then [ioFido]
      else if active &&& ioCcid ≠ 0 then [ioCcid]
      else []
  | .ep4 => [ioDebug]

/-- Regular packets get a mode. -/
theorem Regular.header
    {ep : Endpoint}
    {data : List UInt8}
    (regular : Regular active ep data) :
    ep.header active = [ep.mode active] := by
  cases ep with
  | ep2 => rfl
  | ep4 => rfl
  | ep3 =>
      rw [Endpoint.header, Endpoint.mode]
      by_cases fido : active &&& ioFido ≠ 0
      · rw [if_pos fido, if_pos fido]
      · have ccid := regular.2.resolve_left fido
        rw [if_neg fido, if_neg fido, if_pos ccid]

theorem payloadsOf_append
    (ep : Endpoint)
    (first second : List (Endpoint × List UInt8)) :
    payloadsOf ep (first ++ second) =
      payloadsOf ep first ++ payloadsOf ep second :=
  List.filterMap_append

theorem payloads_append (first second : List (Endpoint × Packet)) :
    payloads (first ++ second) = payloads first ++ payloads second :=
  List.map_append

/-- Stages that are not for an endpoint leave the packets alone. -/
theorem UsbToUart.perform_of_none
    {stage : Stage}
    (other : stage.endpoint = none)
    (usb : UsbToUart) :
    usb.perform active stage = usb := by
  cases stage <;> first | rfl | cases other

theorem UsbToUart.perform_of_endpoint
    {stage : Stage}
    {ep : Endpoint}
    (isStage : stage.endpoint = some ep)
    (usb : UsbToUart) :
    usb.perform active stage = usb.forward ep (ep.header active) := by
  cases stage <;> cases isStage <;> rfl

@[simp] theorem Endpoint.endpoint_stage (ep : Endpoint) :
    ep.stage.endpoint = some ep := by
  cases ep <;> rfl

/-- Endpoints ACK unless they hold a packet, which gets a mode. -/
structure UsbToUart.Alive (active : UInt8) (usb : UsbToUart) : Prop where
  acks : ∀ ep, (usb.outs ep).acks ↔ (usb.outs ep).usbEpByteCount = 0
  header :
    ∀ ep, (usb.outs ep).usbEpByteCount ≠ 0 →
      ep.header active = [ep.mode active]

theorem OutEndpoint.pending_eq_nil_iff (endpoint : OutEndpoint) :
    endpoint.pending = [] ↔ endpoint.usbEpByteCount = 0 := by
  rw [pending]
  by_cases empty : endpoint.usbEpByteCount = 0
  · rw [if_pos empty]
    exact ⟨fun _ => empty, fun _ => rfl⟩
  · rw [if_neg empty]
    exact ⟨nofun, fun is => absurd is empty⟩

/-- A packet of the host fits into a byte. -/
theorem UsbPacket.toNat_usbRxLen (packet : UsbPacket) :
    packet.usbRxLen.toNat = packet.data.length := by
  rw [usbRxLen, UInt8.toNat_ofNat', Nat.mod_eq_of_lt]
  exact Nat.lt_of_le_of_lt packet.short (by decide)

theorem UsbPacket.usbRxLen_eq_zero_iff (packet : UsbPacket) :
    packet.usbRxLen = 0 ↔ packet.data = [] := by
  rw [← UInt8.toNat_inj, packet.toNat_usbRxLen]
  exact List.length_eq_zero_iff

/-- Regular packets are handled alike by all endpoints. -/
theorem OutEndpoint.tokenOut_regular
    {ep : Endpoint}
    {packet : UsbPacket}
    (regular : Regular active ep packet.data)
    (endpoint : OutEndpoint)
    (acks : endpoint.acks = true) :
    endpoint.tokenOut ep packet.usbRxLen =
      { endpoint with
        usbEpByteCount := packet.usbRxLen
        acks := decide (packet.data = []) } := by
  cases ep with
  | ep2 =>
      rw [tokenOut, tokenOut2]
      by_cases empty : packet.data = []
      · rw [if_pos (packet.usbRxLen_eq_zero_iff.mpr empty),
          decide_eq_true empty, ← acks]
      · rw [if_neg (mt packet.usbRxLen_eq_zero_iff.mp empty),
          decide_eq_false empty]
  | ep3 =>
      rw [decide_eq_false regular.1]
      rfl
  | ep4 =>
      have nonempty : packet.data ≠ [] := regular
      rw [decide_eq_false nonempty]
      rfl

/-- What an event does to the packets that were received. -/
structure Chip.Moves
    (active : UInt8)
    (chip next : Chip)
    (accepted : List (Endpoint × List UInt8))
    (forwarded : List (Endpoint × Packet)) : Prop where
  alive : next.toUsbToUart.Alive active
  tx : next.tx = chip.tx ++ wire (forwarded.map Prod.snd)
  regular :
    ∀ packet, packet ∈ forwarded →
      packet.2.mode = packet.1.mode active ∧ packet.2.payload ≠ []
  inOrder :
    ∀ ep,
      (chip.outs ep).pending ++ payloadsOf ep accepted =
        payloadsOf ep (payloads forwarded) ++ (next.outs ep).pending

/-- Nothing happens to the packets when they are not touched. -/
theorem Chip.Moves.of_eq
    {chip next : Chip}
    (alive : chip.toUsbToUart.Alive active)
    (same : next.toUsbToUart = chip.toUsbToUart) :
    Chip.Moves active chip next [] [] := by
  refine ⟨?_, ?_, nofun, ?_⟩
  · rw [same]
    exact alive
  · rw [same]
    exact (List.append_nil _).symm
  · intro ep
    rw [same]
    exact List.append_nil _

/-- Two parts of a run after each other. -/
theorem Chip.Moves.append
    {chip middle next : Chip}
    {accepted accepted' : List (Endpoint × List UInt8)}
    {forwarded forwarded' : List (Endpoint × Packet)}
    (first : Chip.Moves active chip middle accepted forwarded)
    (second : Chip.Moves active middle next accepted' forwarded') :
    Chip.Moves active chip next (accepted ++ accepted')
      (forwarded ++ forwarded') := by
  refine ⟨second.alive, ?_, ?_, ?_⟩
  · rw [second.tx, first.tx, List.append_assoc, List.map_append, wire,
      wire, wire, List.flatMap_append]
  · intro packet member
    rcases List.mem_append.mp member with inFirst | inSecond
    · exact first.regular packet inFirst
    · exact second.regular packet inSecond
  · intro ep
    rw [payloadsOf_append, ← List.append_assoc, first.inOrder,
      List.append_assoc, second.inOrder, ← List.append_assoc,
      payloads_append, payloadsOf_append]

/-- Packets of another endpoint. -/
theorem payloadsOf_eq_nil
    {ep other : Endpoint}
    {packets : List (Endpoint × List UInt8)}
    (all : ∀ packet, packet ∈ packets → packet.1 = ep)
    (isOther : other ≠ ep) :
    payloadsOf other packets = [] := by
  rw [payloadsOf, List.filterMap_eq_nil_iff]
  intro packet member
  exact if_neg fun is => isOther (is.1.symm.trans (all packet member))

/-- One endpoint is handled. -/
theorem Chip.Moves.of_update
    {chip next : Chip}
    (alive : chip.toUsbToUart.Alive active)
    {ep : Endpoint}
    {endpoint : OutEndpoint}
    {accepted : List (Endpoint × List UInt8)}
    {forwarded : List (Endpoint × Packet)}
    (outs : next.outs = Function.update chip.outs ep endpoint)
    (acks : endpoint.acks ↔ endpoint.usbEpByteCount = 0)
    (header :
      endpoint.usbEpByteCount ≠ 0 → ep.header active = [ep.mode active])
    (tx : next.tx = chip.tx ++ wire (forwarded.map Prod.snd))
    (regular :
      ∀ packet, packet ∈ forwarded →
        packet.2.mode = packet.1.mode active ∧ packet.2.payload ≠ [])
    (accepts : ∀ packet, packet ∈ accepted → packet.1 = ep)
    (forwards : ∀ packet, packet ∈ payloads forwarded → packet.1 = ep)
    (inOrder :
      (chip.outs ep).pending ++ payloadsOf ep accepted =
        payloadsOf ep (payloads forwarded) ++ endpoint.pending) :
    Chip.Moves active chip next accepted forwarded := by
  refine ⟨⟨?_, ?_⟩, tx, regular, ?_⟩ <;> intro other <;>
    rw [outs] <;> by_cases isEp : other = ep
  · subst isEp
    rw [Function.update_self]
    exact acks
  · rw [Function.update_of_ne isEp]
    exact alive.acks other
  · subst isEp
    rw [Function.update_self]
    exact header
  · rw [Function.update_of_ne isEp]
    exact alive.header other
  · subst isEp
    rw [Function.update_self]
    exact inOrder
  · rw [Function.update_of_ne isEp, payloadsOf_eq_nil accepts isEp,
      payloadsOf_eq_nil forwards isEp]
    exact List.append_nil _

/-- The packet that an endpoint takes in. -/
theorem OutEndpoint.pending_received
    (endpoint : OutEndpoint)
    (packet : UsbPacket)
    (acks : Bool) :
    OutEndpoint.pending
        { usbEpByteCount := packet.usbRxLen
          bufferRx := write endpoint.bufferRx 0 packet.data
          acks := acks } =
      if packet.data = [] then [] else [packet.data] := by
  rw [pending]
  by_cases empty : packet.data = []
  · rw [if_pos (packet.usbRxLen_eq_zero_iff.mpr empty), if_pos empty]
  · rw [if_neg (mt packet.usbRxLen_eq_zero_iff.mp empty), if_neg empty]
    rw [packet.toNat_usbRxLen, read_write_same]

/-- The payload of one packet. -/
theorem payloadsOf_singleton (ep : Endpoint) (data : List UInt8) :
    payloadsOf ep [(ep, data)] = if data = [] then [] else [data] := by
  rw [payloadsOf]
  by_cases empty : data = []
  · rw [if_pos empty]
    exact List.filterMap_cons_none (if_neg fun is => is.2 empty)
  · rw [if_neg empty]
    exact List.filterMap_cons_some (if_pos ⟨rfl, empty⟩)

/-- An accepted packet waits to be forwarded. -/
theorem Chip.moves_outToken
    {chip : Chip}
    (alive : chip.toUsbToUart.Alive active)
    {ep : Endpoint}
    {togOk : Bool}
    {packet : UsbPacket}
    (regular :
      ∀ accepted, accepted ∈ chip.accepts (.outToken ep togOk packet) →
        Regular active accepted.1 accepted.2) :
    Chip.Moves active chip (chip.step active (.outToken ep togOk packet))
      (chip.accepts (.outToken ep togOk packet)) [] := by
  rw [Chip.accepts] at regular ⊢
  by_cases acks : (chip.outs ep).acks = true
  case neg =>
    rw [if_neg fun accepted => acks accepted.1]
    exact Chip.Moves.of_eq alive (if_neg acks)
  have free := (alive.acks ep).mp acks
  have idle := ((chip.outs ep).pending_eq_nil_iff).mpr free
  cases togOk with
  | false =>
      have dropped : ¬ ((chip.outs ep).acks = true ∧ false = true) :=
        fun accepted => Bool.noConfusion accepted.2
      have outs :
          (chip.step active (.outToken ep false packet)).outs =
            Function.update chip.outs ep
              { chip.outs ep with
                bufferRx := write (chip.outs ep).bufferRx 0 packet.data } :=
        congrArg UsbToUart.outs (if_pos acks)
      rw [if_neg dropped]
      refine
        Chip.Moves.of_update alive outs (alive.acks ep) (alive.header ep)
          ((congrArg UsbToUart.tx (if_pos acks)).trans
            (List.append_nil _).symm)
          nofun nofun nofun ?_
      rw [idle]
      exact (if_pos free).symm
  | true =>
      have accepted : (chip.outs ep).acks = true ∧ true = true :=
        ⟨acks, rfl⟩
      rw [if_pos accepted] at regular ⊢
      have isRegular : Regular active ep packet.data :=
        regular _ (List.mem_singleton_self _)
      have handled :=
        OutEndpoint.tokenOut_regular isRegular
          { chip.outs ep with
            bufferRx := write (chip.outs ep).bufferRx 0 packet.data }
          acks
      refine
        Chip.Moves.of_update alive
          ((congrArg UsbToUart.outs (if_pos acks)).trans
            (congrArg (Function.update chip.outs ep) handled))
          (decide_eq_true_iff.trans packet.usbRxLen_eq_zero_iff.symm)
          (fun _ => isRegular.header)
          ((congrArg UsbToUart.tx (if_pos acks)).trans
            (List.append_nil _).symm)
          nofun ?_ nofun ?_
      · intro only member
        rw [List.mem_singleton.mp member]
      · rw [OutEndpoint.pending_received, idle, payloadsOf_singleton]
        rfl

/-- Nothing is forwarded when there is no packet. -/
theorem Chip.forwards_eq_nil
    {chip : Chip}
    (nothing :
      ∀ ep, chip.stage.endpoint = some ep →
        chip.resetting = true ∨ (chip.outs ep).usbEpByteCount = 0) :
    chip.forwards active .main = [] := by
  rw [forwards]
  cases isStage : chip.stage.endpoint with
  | none => rfl
  | some ep => exact if_pos (nothing ep isStage)

/-- The packet of an endpoint is forwarded by its stage. -/
theorem Chip.forwards_eq
    {chip : Chip}
    {ep : Endpoint}
    (isStage : chip.stage.endpoint = some ep)
    (running : ¬ chip.resetting = true)
    (received : (chip.outs ep).usbEpByteCount ≠ 0) :
    chip.forwards active .main =
      [(ep, (chip.outs ep).packet (ep.mode active))] := by
  rw [forwards, isStage]
  exact if_neg (not_or.mpr ⟨running, received⟩)

/-- The bytes of a packet are those that are sent for it. -/
theorem OutEndpoint.wire_packet (endpoint : OutEndpoint) (mode : UInt8) :
    wire [endpoint.packet mode] =
      mode :: endpoint.usbEpByteCount ::
        read endpoint.bufferRx 0 endpoint.usbEpByteCount.toNat := by
  rw [wire, List.flatMap_singleton, Packet.wire]
  simp only [packet, length_read, UInt8.ofNat_toNat]

theorem OutEndpoint.packet_ne_nil
    {endpoint : OutEndpoint}
    (received : endpoint.usbEpByteCount ≠ 0)
    (mode : UInt8) :
    (endpoint.packet mode).payload ≠ [] := by
  have length : endpoint.usbEpByteCount.toNat ≠ 0 := fun is =>
    received (UInt8.toNat_inj.mp is)
  rw [packet, ← List.length_pos_iff, length_read]
  exact Nat.pos_of_ne_zero length

/-- A packet carries what its endpoint holds. -/
theorem OutEndpoint.payloadsOf_packet
    {ep : Endpoint}
    {endpoint : OutEndpoint}
    (received : endpoint.usbEpByteCount ≠ 0)
    {mode : UInt8} :
    payloadsOf ep (payloads [(ep, endpoint.packet mode)]) =
      endpoint.pending :=
  (payloadsOf_singleton _ _).trans
    ((if_neg (packet_ne_nil received _)).trans (if_neg received).symm)

/-- A stage forwards the packet of its endpoint. -/
theorem Chip.moves_main
    {chip : Chip}
    (alive : chip.toUsbToUart.Alive active) :
    Chip.Moves active chip (chip.step active .main) []
      (chip.forwards active .main) := by
  rw [Chip.step, Chip.main]
  by_cases resetting : chip.resetting = true
  · rw [if_pos resetting, Chip.forwards_eq_nil fun _ _ => .inl resetting]
    exact Chip.Moves.of_eq alive rfl
  rw [if_neg resetting]
  by_cases waits : chip.stage = .top ∧ chip.usbConfig = 0
  · have nothing : chip.forwards active .main = [] := by
      rw [Chip.forwards, waits.1]
      rfl
    rw [if_pos waits, nothing]
    exact Chip.Moves.of_eq alive rfl
  rw [if_neg waits]
  cases isStage : chip.stage.endpoint with
  | none =>
      have nothing : chip.forwards active .main = [] := by
        rw [Chip.forwards, isStage]
      rw [nothing]
      exact
        Chip.Moves.of_eq alive (UsbToUart.perform_of_none isStage _)
  | some ep =>
      have performed :=
        @UsbToUart.perform_of_endpoint active chip.stage ep isStage
          chip.toUsbToUart
      rw [performed, UsbToUart.forward]
      by_cases free : (chip.outs ep).usbEpByteCount = 0
      · have onlyEp (other : Endpoint)
            (isOther : chip.stage.endpoint = some other) :
            (chip.outs other).usbEpByteCount = 0 := by
          rw [isStage] at isOther
          cases isOther
          exact free
        rw [Chip.forwards_eq_nil fun other is => .inr (onlyEp other is),
          if_neg (not_not.mpr free)]
        exact Chip.Moves.of_eq alive rfl
      · rw [Chip.forwards_eq isStage resetting free, if_pos free]
        refine
          Chip.Moves.of_update alive rfl
            ⟨fun _ => rfl, fun _ => rfl⟩ (fun is => absurd rfl is)
            ?_ ?_ (fun _ member => absurd member List.not_mem_nil) ?_ ?_
        · rw [alive.header ep free, List.map_singleton,
            OutEndpoint.wire_packet]
          rfl
        · intro packet member
          rw [List.mem_singleton.mp member]
          exact ⟨rfl, OutEndpoint.packet_ne_nil free _⟩
        · intro packet member
          rw [List.mem_singleton.mp member]
        · rw [OutEndpoint.payloadsOf_packet free]
          rfl

/-- What an event does to the packets that were received. -/
theorem Chip.moves_step
    {chip : Chip}
    (alive : chip.toUsbToUart.Alive active)
    (event : Event)
    (regular :
      ∀ packet, packet ∈ chip.accepts event →
        Regular active packet.1 packet.2) :
    Chip.Moves active chip (chip.step active event) (chip.accepts event)
      (chip.forwards active event) := by
  cases event with
  | main => exact Chip.moves_main alive
  | outToken ep togOk packet => exact Chip.moves_outToken alive regular
  | inToken ep => exact Chip.Moves.of_eq alive rfl
  | setConfiguration usbConfig => exact Chip.Moves.of_eq alive rfl
  | uart1 byte => exact Chip.Moves.of_eq alive rfl

/-- What a run does to the packets that were received. -/
theorem Chip.moves_run
    {chip : Chip}
    (alive : chip.toUsbToUart.Alive active)
    (events : List Event)
    (regular : chip.AcceptsRegular active events) :
    Chip.Moves active chip (chip.run active events)
      (chip.accepted active events) (chip.forwarded active events) := by
  induction events generalizing chip with
  | nil => exact Chip.Moves.of_eq alive rfl
  | cons event events inductionHypothesis =>
      have first :=
        Chip.moves_step alive event fun packet member =>
          regular packet (List.mem_append_left _ member)
      exact
        first.append
          (inductionHypothesis first.alive fun packet member =>
            regular packet (List.mem_append_right _ member))

/-- At the beginning all endpoints ACK. -/
theorem Chip.alive_boot (resetKeep : UInt8) :
    (Chip.boot resetKeep).toUsbToUart.Alive active :=
  ⟨fun _ => ⟨fun _ => rfl, fun _ => rfl⟩, fun _ is => absurd rfl is⟩

end Steps

section Forwarding

variable {active : UInt8}

theorem Chip.accepted_append (chip : Chip) (first second : List Event) :
    chip.accepted active (first ++ second) =
      chip.accepted active first ++
        (chip.run active first).accepted active second := by
  induction first generalizing chip with
  | nil => rfl
  | cons event first inductionHypothesis =>
      rw [List.cons_append, accepted, inductionHypothesis, accepted,
        List.append_assoc]
      rfl

theorem Chip.forwarded_append (chip : Chip) (first second : List Event) :
    chip.forwarded active (first ++ second) =
      chip.forwarded active first ++
        (chip.run active first).forwarded active second := by
  induction first generalizing chip with
  | nil => rfl
  | cons event first inductionHypothesis =>
      rw [List.cons_append, forwarded, inductionHypothesis, forwarded,
        List.append_assoc]
      rfl

/-- A packet that waits is forwarded within an iteration of the loop. -/
theorem Chip.pending_forwarded
    {chip : Chip}
    (alive : chip.toUsbToUart.Alive active)
    {events : List Event}
    (regular : chip.AcceptsRegular active events)
    (keeps : chip.KeepsRunning active events)
    {ep : Endpoint}
    (enough : chip.stage.stepsTo ep.stage < mainSteps events) :
    (chip.outs ep).pending <+:
      payloadsOf ep (payloads (chip.forwarded active events)) := by
  induction events generalizing chip with
  | nil => exact absurd enough (Nat.not_lt_zero _)
  | cons event events inductionHypothesis =>
      by_cases free : (chip.outs ep).pending = []
      · rw [free]
        exact List.nil_prefix
      have regularHead (packet) (member : packet ∈ chip.accepts event) :=
        regular packet (List.mem_append_left _ member)
      have moves := Chip.moves_step alive event regularHead
      have inOrder := moves.inOrder ep
      -- While it waits, its endpoint accepts nothing.
      have busy : payloadsOf ep (chip.accepts event) = [] := by
        cases event with
        | main => rfl
        | inToken _ => rfl
        | setConfiguration _ => rfl
        | uart1 _ => rfl
        | outToken other togOk packet =>
            rw [Chip.accepts]
            by_cases accepts : (chip.outs other).acks ∧ togOk
            · have isFree := (alive.acks other).mp accepts.1
              have isOther : ep ≠ other := by
                rintro rfl
                exact free ((OutEndpoint.pending_eq_nil_iff _).mpr isFree)
              rw [if_pos accepts]
              refine payloadsOf_eq_nil (fun only member => ?_) isOther
              rw [List.mem_singleton.mp member]
            · rw [if_neg accepts]
              rfl
      rw [busy, List.append_nil] at inOrder
      rw [Chip.forwarded, payloads_append, payloadsOf_append, inOrder,
        List.prefix_append_right_inj]
      have stages := @Chip.stage_step active chip keeps.head event
      by_cases now : event = .main ∧ chip.stage = ep.stage
      · obtain ⟨rfl, isStage⟩ := now
        have received := mt (OutEndpoint.pending_eq_nil_iff _).mpr free
        have notResetting : ¬ chip.resetting = true := by
          rw [keeps.head.2]
          exact Bool.false_ne_true
        have sent :=
          @Chip.forwards_eq active chip ep
            (by rw [isStage, Endpoint.endpoint_stage]) notResetting received
        rw [sent, OutEndpoint.payloadsOf_packet received] at inOrder
        rw [List.self_eq_append_right.mp inOrder]
        exact List.nil_prefix
      · refine
          inductionHypothesis moves.alive
            (fun packet member =>
              regular packet (List.mem_append_right _ member))
            keeps.tail ?_
        rw [stages]
        cases event with
        | main =>
            have nearer :=
              Stage.stepsTo_next fun isStage => now ⟨rfl, isStage⟩
            have steps : mainSteps (.main :: events) = mainSteps events + 1 :=
              List.countP_cons_of_pos rfl
            simp only
            omega
        | _ => exact enough

/--
The packets of the host are on the UART as long as they are regular: after
every part of a run, and every packet an iteration of the loop after it was
accepted at the latest.
-/
theorem usb_to_uart
    (active resetKeep : UInt8)
    (events : List Event)
    (regular : (Chip.boot resetKeep).AcceptsRegular active events) :
    ∃ forwarded,
      ((Chip.boot resetKeep).run active events).Forwards active
          ((Chip.boot resetKeep).accepted active events) forwarded ∧
        ∀ before later,
          events = before ++ later →
          ((Chip.boot resetKeep).run active before).KeepsRunning active
            later →
          13 ≤ mainSteps later →
          ∀ ep,
            payloadsOf ep ((Chip.boot resetKeep).accepted active before) <+:
              payloadsOf ep (payloads forwarded) := by
  have alive := @Chip.alive_boot active resetKeep
  have moves := Chip.moves_run alive events regular
  refine ⟨(Chip.boot resetKeep).forwarded active events, ?_, ?_⟩
  · refine ⟨moves.tx, moves.regular, moves.inOrder, fun ep => ?_⟩
    rw [OutEndpoint.pending_eq_nil_iff]
    exact moves.alive.acks ep
  · rintro before later rfl keeps enough ep
    have split (packet) :=
      (Chip.boot resetKeep).accepted_append before later ▸ regular packet
    have first :=
      Chip.moves_run alive before fun packet member =>
        split packet (List.mem_append_left _ member)
    have soon :=
      Chip.pending_forwarded first.alive
        (fun packet member =>
          split packet (List.mem_append_right _ member))
        keeps
        (Nat.lt_of_lt_of_le (Stage.stepsTo_lt _ ep.stage) enough)
    have inOrder :
        payloadsOf ep ((Chip.boot resetKeep).accepted active before) =
          payloadsOf ep
              (payloads ((Chip.boot resetKeep).forwarded active before)) ++
            (((Chip.boot resetKeep).run active before).outs ep).pending :=
      first.inOrder ep
    rw [inOrder, Chip.forwarded_append, payloads_append, payloadsOf_append,
      List.prefix_append_right_inj]
    exact soon

/-- A packet of one byte for endpoint 3, with FIDO active. -/
def fidoEvents : List Event :=
  [.setConfiguration 1,
    .outToken .ep3 true { data := [0xAA], short := by decide }]

theorem usb_to_uart_sample :
    ∃ forwarded,
      payloadsOf .ep3
          ((Chip.boot ioFido).accepted (activeEndpoints ioFido)
            fidoEvents) <+:
        payloadsOf .ep3 (payloads forwarded) ∧
      ((Chip.boot ioFido).run (activeEndpoints ioFido)
        (fidoEvents ++ List.replicate 13 .main)).tx =
          wire (forwarded.map Prod.snd) := by
  have accepted :
      (Chip.boot ioFido).accepted (activeEndpoints ioFido)
          (fidoEvents ++ List.replicate 13 .main) =
        [(.ep3, [0xAA])] := by
    rfl
  obtain ⟨forwarded, forwards, soon⟩ :=
    usb_to_uart (activeEndpoints ioFido) ioFido
      (fidoEvents ++ List.replicate 13 .main)
      (by
        intro packet member
        rw [accepted] at member
        rw [List.mem_singleton.mp member]
        exact ⟨by decide, .inl (by decide)⟩)
  refine ⟨forwarded, ?_, forwards.tx⟩
  refine soon fidoEvents (List.replicate 13 .main) rfl ?_ (by decide) .ep3
  intro before isBefore
  have runs :
      ∀ count, count < 14 →
        (((Chip.boot ioFido).run (activeEndpoints ioFido) fidoEvents).run
          (activeEndpoints ioFido)
          (List.replicate count .main)).Running := by
    unfold Chip.Running
    decide
  obtain ⟨short, all⟩ := List.prefix_replicate_iff.mp isBefore
  rw [all]
  exact runs _ (Nat.lt_succ_of_le short)

/-- Without a packet the loop leaves the endpoints alone. -/
theorem Chip.toUsbToUart_main
    {chip : Chip}
    (free : ∀ ep, (chip.outs ep).usbEpByteCount = 0) :
    (chip.main active).toUsbToUart = chip.toUsbToUart := by
  rw [Chip.main]
  split
  · rfl
  split
  · rfl
  · cases isStage : chip.stage.endpoint with
    | none => exact UsbToUart.perform_of_none isStage _
    | some ep =>
        exact
          (UsbToUart.perform_of_endpoint isStage _).trans
            (if_neg (not_not.mpr (free ep)))

theorem Chip.toUsbToUart_run_main
    {chip : Chip}
    (free : ∀ ep, (chip.outs ep).usbEpByteCount = 0)
    (count : Nat) :
    (chip.run active (List.replicate count .main)).toUsbToUart =
      chip.toUsbToUart := by
  induction count generalizing chip with
  | zero => rfl
  | succ count inductionHypothesis =>
      have same := @Chip.toUsbToUart_main active chip free
      refine (inductionHypothesis fun ep => ?_).trans same
      rw [step, same]
      exact free ep

/-- An empty packet for endpoint 4. -/
def emptyEvents : List Event :=
  [.setConfiguration 1, .outToken .ep4 true { data := [], short := by decide }]

/-- After an empty packet endpoint 4 never returns to ACK. -/
theorem usb_to_uart_counterexample :
    ¬ ∃ count forwarded,
      ((Chip.boot ioDebug).run (activeEndpoints ioDebug)
        (emptyEvents ++ List.replicate count .main)).Forwards
          (activeEndpoints ioDebug)
          ((Chip.boot ioDebug).accepted (activeEndpoints ioDebug)
            (emptyEvents ++ List.replicate count .main))
          forwarded := by
  rintro ⟨count, forwarded, forwards⟩
  have free (ep : Endpoint) :
      (((Chip.boot ioDebug).run (activeEndpoints ioDebug)
        emptyEvents).outs ep).usbEpByteCount = 0 := by
    cases ep <;> rfl
  have kept :=
    @Chip.toUsbToUart_run_main (activeEndpoints ioDebug) _ free count
  have acks := forwards.acks .ep4
  rw [Chip.run_append, kept] at acks
  exact Bool.noConfusion (acks.mpr rfl)

end Forwarding

end TKey.Ch552
