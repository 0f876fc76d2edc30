import TKey.FrameStream
import TKey.UsbToUart

namespace TKey

open Ch552 ChunkedStream

/-!
# Commands of the host at the firmware

The host sends frames for the firmware to the CDC endpoint, in USB packets of
any lengths, while there can be packets for the other endpoints.  The CH552
sends all of them over the UART, where `readcommand` takes the frames from.
-/

section Packets

variable {active : UInt8} {forwarded : List (Endpoint × Packet)}

/-- Packets with the modes of their endpoints. -/
def Labelled (active : UInt8) (forwarded : List (Endpoint × Packet)) : Prop :=
  ∀ packet, packet ∈ forwarded →
    packet.2.mode = packet.1.mode active ∧ packet.2.payload ≠ []

theorem mode_eq_ioCdc_iff (ep : Endpoint) :
    ep.mode active = ioCdc ↔ ep = .ep2 := by
  cases ep with
  | ep2 => exact ⟨fun _ => rfl, fun _ => rfl⟩
  | ep3 =>
      rw [Endpoint.mode]
      split <;> decide
  | ep4 =>
      change ioDebug = ioCdc ↔ _
      decide

theorem mode_and_ioCdc {ep : Endpoint} (other : ep ≠ .ep2) :
    ep.mode active &&& ioCdc = 0 := by
  cases ep with
  | ep2 => exact absurd rfl other
  | ep3 =>
      rw [Endpoint.mode]
      split <;> decide
  | ep4 =>
      change ioDebug &&& ioCdc = 0
      decide

/-- The firmware knows all modes of the CH552. -/
theorem Labelled.known (labelled : Labelled active forwarded) :
    Known (forwarded.map Prod.snd) := by
  intro packet member
  obtain ⟨source, isSource, rfl⟩ := List.mem_map.mp member
  obtain ⟨mode, notEmpty⟩ := labelled source isSource
  by_cases isCdc : source.1 = .ep2
  · exact .inl ⟨mode.trans ((mode_eq_ioCdc_iff _).mpr isCdc), notEmpty⟩
  · refine .inr ?_
    rw [Packet.IsOther, mode]
    exact mode_and_ioCdc isCdc

/-- What the CDC endpoint of the firmware gets comes from endpoint 2. -/
theorem Labelled.cdcChunks_eq (labelled : Labelled active forwarded) :
    cdcChunks (forwarded.map Prod.snd) =
      payloadsOf .ep2 (payloads forwarded) := by
  rw [cdcChunks, payloadsOf, payloads, List.filterMap_map,
    List.filterMap_map]
  refine List.filterMap_congr fun source isSource => ?_
  obtain ⟨mode, notEmpty⟩ := labelled source isSource
  simp only [Function.comp_apply, mode, mode_eq_ioCdc_iff, notEmpty, ne_eq,
    not_false_eq_true, and_true]

end Packets

section Frames

/-- Chunks end behind the first ones. -/
theorem isBoundary_append (first rest : List (List UInt8)) :
    IsBoundary (first ++ rest) first.flatten.length :=
  ⟨first.length, by rw [List.take_left]⟩

/-- Frames that are sent in packets of their own. -/
def Own (frames : List (Frame × List (List UInt8))) : Prop :=
  ∀ frame, frame ∈ frames → frame.2.flatten = frame.1.bytes

/-- Frames in packets of their own end where a packet ends. -/
theorem Own.splitsWell
    {frames : List (Frame × List (List UInt8))}
    (own : Own frames)
    (before : List (List UInt8)) :
    SplitsWell (before ++ frames.flatMap Prod.snd) before.flatten.length
      (frames.map Prod.fst) := by
  induction frames generalizing before with
  | nil => trivial
  | cons frame frames inductionHypothesis =>
      have bytes := own frame (List.mem_cons_self ..)
      have ends :
          (before ++ frame.2).flatten.length =
            before.flatten.length + frame.1.bytes.length := by
        rw [List.flatten_append, List.length_append, bytes]
      have later :=
        inductionHypothesis
          (fun later member => own later (List.mem_cons_of_mem _ member))
          (before ++ frame.2)
      rw [ends, List.append_assoc] at later
      refine ⟨fun _ _ _ _ => ?_, later⟩
      rw [List.flatMap_cons, ← List.append_assoc, ← ends]
      exact isBoundary_append ..

/-- The bytes of frames in packets of their own. -/
theorem Own.flatten
    {frames : List (Frame × List (List UInt8))}
    (own : Own frames) :
    (frames.flatMap Prod.snd).flatten =
      (frames.map Prod.fst).flatMap Frame.bytes := by
  induction frames with
  | nil => rfl
  | cons frame frames inductionHypothesis =>
      rw [List.flatMap_cons, List.flatten_append,
        own frame (List.mem_cons_self ..),
        inductionHypothesis fun later member =>
          own later (List.mem_cons_of_mem _ member)]
      rfl

end Frames

section Host

variable {active : UInt8}

/-- The firmware is going to get what the host has sent. -/
theorem delivers_tx
    (resetKeep : UInt8)
    {events : List Ch552.Event}
    (regular : (Chip.boot resetKeep).AcceptsRegular active events)
    (free : (((Chip.boot resetKeep).run active events).outs .ep2).acks)
    {chunks : List (List UInt8)}
    (sent :
      payloadsOf .ep2 ((Chip.boot resetKeep).accepted active events) =
        chunks) :
    (Uart.initial ((Chip.boot resetKeep).run active events).tx).Delivers
        (chop 0 chunks) ∧
      chop 0 chunks = chunks := by
  have moves := Chip.moves_run (Chip.alive_boot resetKeep) events regular
  have labelled :
      Labelled active ((Chip.boot resetKeep).forwarded active events) :=
    moves.regular
  have none :
      (((Chip.boot resetKeep).run active events).outs .ep2).pending = [] :=
    (OutEndpoint.pending_eq_nil_iff _).mpr ((moves.alive.acks .ep2).mp free)
  have inOrder :
      payloadsOf .ep2 ((Chip.boot resetKeep).accepted active events) =
        payloadsOf .ep2
            (payloads ((Chip.boot resetKeep).forwarded active events)) ++
          (((Chip.boot resetKeep).run active events).outs .ep2).pending :=
    moves.inOrder .ep2
  have tx :
      ((Chip.boot resetKeep).run active events).tx =
        wire (((Chip.boot resetKeep).forwarded active events).map Prod.snd) :=
    moves.tx
  rw [none, List.append_nil, ← labelled.cdcChunks_eq, sent] at inOrder
  have whole : chop 0 chunks = chunks := by
    rw [inOrder]
    exact chop_zero fun _ => labelled.known.ne_nil
  rw [whole, inOrder, tx]
  exact ⟨delivers_initial labelled.known, rfl⟩

/--
When endpoint 2 is free, the firmware reads exactly the frames that the host has
sent if and only if every frame with a USB packet's end inside its payload ends
where one of the host's packets ends.  Packets for other endpoints, and the
order in which all of them were sent, make no difference.
-/
theorem host_commands_iff
    (resetKeep : UInt8)
    {events : List Ch552.Event}
    (regular : (Chip.boot resetKeep).AcceptsRegular active events)
    (free : (((Chip.boot resetKeep).run active events).outs .ep2).acks)
    {frames : List Frame}
    (stream :
      (payloadsOf .ep2
          ((Chip.boot resetKeep).accepted active events)).flatten =
        frames.flatMap Frame.bytes) :
    ReadsFrames (.initial ((Chip.boot resetKeep).run active events).tx)
        frames ↔
      SplitsWell
        (payloadsOf .ep2 ((Chip.boot resetKeep).accepted active events)) 0
        frames := by
  obtain ⟨delivers, whole⟩ := delivers_tx resetKeep regular free rfl
  exact readsFrames_iff_of_delivers delivers (whole.symm ▸ stream)

/-- Endpoint 2 gets free within an iteration of the loop. -/
theorem acks_after_iteration
    (resetKeep : UInt8)
    {before later : List Ch552.Event}
    (regular : (Chip.boot resetKeep).AcceptsRegular active (before ++ later))
    (keeps :
      ((Chip.boot resetKeep).run active before).KeepsRunning active later)
    (iteration : 13 ≤ mainSteps later)
    (quiet :
      payloadsOf .ep2 ((Chip.boot resetKeep).accepted active before) =
        payloadsOf .ep2
          ((Chip.boot resetKeep).accepted active (before ++ later))) :
    (((Chip.boot resetKeep).run active (before ++ later)).outs .ep2).acks := by
  have split (packet) :=
    (Chip.boot resetKeep).accepted_append before later ▸ regular packet
  have moves :=
    Chip.moves_run (Chip.alive_boot resetKeep) (before ++ later) regular
  have first :=
    Chip.moves_run (Chip.alive_boot resetKeep) before fun packet member =>
      split packet (List.mem_append_left _ member)
  have soon :=
    @Chip.pending_forwarded active _ first.alive _
      (fun packet member => split packet (List.mem_append_right _ member))
      keeps .ep2
      (Nat.lt_of_lt_of_le (Stage.stepsTo_lt _ Endpoint.ep2.stage) iteration)
  have inOrderBefore :
      payloadsOf .ep2 ((Chip.boot resetKeep).accepted active before) =
        payloadsOf .ep2
            (payloads ((Chip.boot resetKeep).forwarded active before)) ++
          (((Chip.boot resetKeep).run active before).outs .ep2).pending :=
    first.inOrder .ep2
  have inOrder :
      payloadsOf .ep2
          ((Chip.boot resetKeep).accepted active (before ++ later)) =
        payloadsOf .ep2
            (payloads
              ((Chip.boot resetKeep).forwarded active (before ++ later))) ++
          (((Chip.boot resetKeep).run active (before ++ later)).outs
            .ep2).pending :=
    moves.inOrder .ep2
  rw [← quiet, inOrderBefore, Chip.forwarded_append, payloads_append,
    payloadsOf_append, List.append_assoc, List.append_cancel_left_eq]
    at inOrder
  have none :
      (((Chip.boot resetKeep).run active (before ++ later)).outs
        .ep2).pending = [] := by
    have lengths := congrArg List.length inOrder
    rw [List.length_append] at lengths
    have atMost := soon.length_le
    exact List.length_eq_zero_iff.mp (by omega)
  exact
    (moves.alive.acks .ep2).mpr ((OutEndpoint.pending_eq_nil_iff _).mp none)

/-- A host that sends frames in packets of their own, cut anywhere. -/
structure HostSends
    (active resetKeep : UInt8)
    (before later : List Ch552.Event)
    (frames : List (Frame × List (List UInt8))) : Prop where
  regular : (Chip.boot resetKeep).AcceptsRegular active (before ++ later)
  keeps : ((Chip.boot resetKeep).run active before).KeepsRunning active later
  own : Own frames
  sent :
    payloadsOf .ep2 ((Chip.boot resetKeep).accepted active before) =
      frames.flatMap Prod.snd
  /-- The CH552 has had time for an iteration of its loop. -/
  iteration : 13 ≤ mainSteps later
  quiet :
    payloadsOf .ep2 ((Chip.boot resetKeep).accepted active before) =
      payloadsOf .ep2
        ((Chip.boot resetKeep).accepted active (before ++ later))

/-- What the firmware reads is what the host has sent. -/
theorem HostSends.readsFrames
    {resetKeep : UInt8}
    {before later : List Ch552.Event}
    {frames : List (Frame × List (List UInt8))}
    (sends : HostSends active resetKeep before later frames) :
    ReadsFrames
      (.initial ((Chip.boot resetKeep).run active (before ++ later)).tx)
      (frames.map Prod.fst) := by
  have free :=
    acks_after_iteration resetKeep sends.regular sends.keeps sends.iteration
      sends.quiet
  have all :
      payloadsOf .ep2
          ((Chip.boot resetKeep).accepted active (before ++ later)) =
        frames.flatMap Prod.snd :=
    sends.quiet.symm.trans sends.sent
  obtain ⟨delivers, whole⟩ := delivers_tx resetKeep sends.regular free all
  have stream := sends.own.flatten
  rw [← whole] at stream
  exact
    (readsFrames_iff_of_delivers delivers stream).mpr (sends.own.splitsWell [])

/--
Frames that the host sends in packets of their own, cut anywhere, are what the
firmware reads, an iteration of the loop after the last of them at the latest.
-/
theorem host_frames_reach_firmware
    (resetKeep : UInt8)
    {before later : List Ch552.Event}
    (regular : (Chip.boot resetKeep).AcceptsRegular active (before ++ later))
    (keeps :
      ((Chip.boot resetKeep).run active before).KeepsRunning active later)
    (iteration : 13 ≤ mainSteps later)
    {frames : List (Frame × List (List UInt8))}
    (own : Own frames)
    (sent :
      payloadsOf .ep2 ((Chip.boot resetKeep).accepted active before) =
        frames.flatMap Prod.snd)
    (quiet :
      payloadsOf .ep2 ((Chip.boot resetKeep).accepted active before) =
        payloadsOf .ep2
          ((Chip.boot resetKeep).accepted active (before ++ later))) :
    ReadsFrames
      (.initial ((Chip.boot resetKeep).run active (before ++ later)).tx)
      (frames.map Prod.fst) :=
  HostSends.readsFrames ⟨regular, keeps, own, sent, iteration, quiet⟩

/-- The host sends a frame in two packets. -/
def commandEvents : List Ch552.Event :=
  [.setConfiguration 1,
    .outToken .ep2 true { data := [0x11, 1], short := by decide }] ++
    List.replicate 13 .main ++
    [.outToken .ep2 true { data := [2, 3, 4], short := by decide }]

theorem commandEvents_regular (later : List Ch552.Event)
    (accepted :
      (Chip.boot 0).accepted (activeEndpoints 0) (commandEvents ++ later) =
        [(.ep2, [0x11, 1]), (.ep2, [2, 3, 4])]) :
    (Chip.boot 0).AcceptsRegular (activeEndpoints 0)
      (commandEvents ++ later) := by
  intro packet member
  rw [accepted] at member
  rcases List.mem_cons.mp member with rfl | member
  · exact trivial
  · rw [List.mem_singleton.mp member]
    exact trivial

theorem host_commands_iff_sample :
    ReadsFrames
        (.initial
          ((Chip.boot 0).run (activeEndpoints 0)
            (commandEvents ++ List.replicate 13 .main)).tx)
        [fourByteFrame] ↔
      SplitsWell
        (payloadsOf .ep2
          ((Chip.boot 0).accepted (activeEndpoints 0)
            (commandEvents ++ List.replicate 13 .main))) 0
        [fourByteFrame] :=
  host_commands_iff 0 (commandEvents_regular _ (by decide +kernel))
    (by decide +kernel) (by decide +kernel)

theorem host_frames_reach_firmware_sample :
    ReadsFrames
      (.initial
        ((Chip.boot 0).run (activeEndpoints 0)
          (commandEvents ++ List.replicate 13 .main)).tx)
      [fourByteFrame] := by
  have own : Own [(fourByteFrame, [[0x11, 1], [2, 3, 4]])] := by
    intro frame member
    rw [List.mem_singleton.mp member]
    rfl
  refine
    @host_frames_reach_firmware (activeEndpoints 0) 0 commandEvents
      (List.replicate 13 .main)
      (commandEvents_regular _ (by decide +kernel)) ?_ (by decide) _ own
      (by decide +kernel) (by decide +kernel)
  intro during isDuring
  have runs :
      ∀ count, count < 14 →
        (((Chip.boot 0).run (activeEndpoints 0) commandEvents).run
          (activeEndpoints 0) (List.replicate count .main)).Running := by
    unfold Chip.Running
    decide +kernel
  obtain ⟨short, all⟩ := List.prefix_replicate_iff.mp isDuring
  rw [all]
  exact runs _ (Nat.lt_succ_of_le short)

end Host

end TKey
