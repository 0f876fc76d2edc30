import TKey.ClientLoading
import TKey.HostCommands
import TKey.HostWrites

namespace TKey

open ByteMemory ChunkedStream

/-!
# Loading an app from the host

The host sends an app to the USB controller, which forwards it to the firmware,
and collects the replies of the firmware from the USB controller.  Here it need
not wait for a reply before it sends more.
-/

section Loop

/-- A frame in one packet. -/
def Frame.request (frame : Frame) : Request where
  frame := frame
  packets :=
    [{ mode := ioCdc
       payload := frame.bytes
       short := by
         have bounds : frame.payload.length ≤ 128 := frame.bounds.2
         rw [Frame.bytes, List.length_cons]
         omega }]
  known packet member := by
    obtain rfl := List.mem_singleton.mp member
    exact .inl ⟨rfl, List.cons_ne_nil _ _⟩
  carries := List.append_nil _

/-- The main loop reads some frames that have arrived. -/
def Link.readFrames (device : Device) : Nat → Link → Option Link
  | 0, link => some link
  | frames + 1, link =>
      (link.serve device []).bind fun link' => link'.readFrames device frames

theorem Uart.sent_nil (uart : Uart) : uart.sent [] = uart := by
  rw [Uart.sent, wire, List.flatMap_nil, List.append_nil]

variable {device : Device} {link link' : Link}

/-- What the main loop does depends on the frame, not on how it arrived. -/
theorem Link.serve_read
    {request : Request}
    (idle : link.uart.Delivers [])
    (served : link.serve device request.packets = some link')
    {uart uart' : Uart}
    (returns :
      Uart.readcommand.run uart = .ok (some request.frame.command) uart') :
    ({ link with uart := uart } : Link).serve device [] =
        some { link' with uart := uart' } ∧
      link'.uart.Delivers [] := by
  obtain ⟨after, received, left⟩ := idle.readcommand_request request
  rw [serve] at served ⊢
  by_cases reads : link.state.reads = true
  case neg =>
    rw [if_neg reads] at served
    cases served
  rw [if_pos reads, received] at served
  rw [if_pos reads, Uart.sent_nil, returns]
  dsimp only at served ⊢
  cases reacted :
      (react device (some request.frame.command) link.state link.ctx).run
        link.machine with
  | error stop m =>
      rw [reacted] at served
      cases served
  | ok next m =>
      rw [reacted] at served
      cases next with
      | loop state ctx =>
          cases served
          exact ⟨rfl, left⟩
      | jump ctx => cases served

/-- Frames that arrive together are served like requests one by one. -/
theorem Link.readFrames_exchange
    {requests : List Request}
    (idle : link.uart.Delivers [])
    (exchanged : exchange device link requests = some link')
    {uart : Uart}
    (reads : ReadsFrames uart (requests.map Request.frame)) :
    ∃ uart',
      ({ link with uart := uart } : Link).readFrames device requests.length =
        some { link' with uart := uart' } := by
  induction requests generalizing link uart with
  | nil =>
      obtain rfl := Option.some.inj exchanged
      exact ⟨uart, rfl⟩
  | cons request requests inductionHypothesis =>
      cases reads with
      | cons returns consumes later =>
          rw [exchange, Option.bind_eq_some_iff] at exchanged
          obtain ⟨between, served, exchangedLater⟩ := exchanged
          obtain ⟨servedToo, idleLater⟩ := serve_read idle served returns
          obtain ⟨uart', readLater⟩ :=
            inductionHypothesis idleLater exchangedLater later
          refine ⟨uart', ?_⟩
          rw [List.length_cons, readFrames, servedToo]
          exact readLater

end Loop

section Replies

/-- What is written to the CDC endpoint. -/
def cdcWrites (writes : List Write) : List (List UInt8) :=
  (writes.filter fun write => write.dest == ioCdc).map Write.buf

/-- Only what is written to CDC comes from endpoint 2. -/
theorem received_cdc
    {active : UInt8}
    (isActive : ioCdc &&& active ≠ 0)
    (write : Write) :
    write.received active .ep2 =
      if write.dest = ioCdc then write.buf else [] := by
  by_cases isCdc : write.dest = ioCdc
  · have sink : Ch552.sinkOf active write.dest = .cdc := by
      rw [Ch552.sinkOf, isCdc, if_neg isActive, if_pos rfl]
    rw [if_pos isCdc, Write.received, sink]
    rfl
  · rw [if_neg isCdc, Write.received]
    apply if_neg
    rw [Ch552.sinkOf, if_neg isCdc]
    split_ifs
    all_goals
      intro same
      cases same

theorem receivedAll_cdc
    {active : UInt8}
    (isActive : ioCdc &&& active ≠ 0)
    (writes : List Write) :
    Write.receivedAll active writes .ep2 = (cdcWrites writes).flatten := by
  induction writes with
  | nil => rfl
  | cons write writes inductionHypothesis =>
      rw [cdcWrites] at inductionHypothesis
      rw [Write.receivedAll, List.flatMap_cons, ← Write.receivedAll,
        inductionHypothesis, received_cdc isActive, cdcWrites,
        List.filter_cons]
      by_cases isCdc : write.dest = ioCdc
      · rw [if_pos isCdc, if_pos (beq_iff_eq.mpr isCdc)]
        rfl
      · rw [if_neg isCdc, if_neg fun same => isCdc (beq_iff_eq.mp same)]
        rfl

end Replies

section Loading

/-- A firmware that waits for commands, and reads from a UART. -/
def Link.waitingFor (uart : Uart) (ctx : Context) (m : Machine) : Link where
  uart := uart
  state := .waitcommand
  ctx := ctx
  machine := m

/-- Requests one by one load an image. -/
theorem exchange_image
    (device : Device)
    (chip : FlashChip)
    (scrambled : Memory)
    (info : Reset)
    (events : List Event)
    {requested : Reset}
    {heard : List Incoming}
    {ctx : Context}
    {m : Machine}
    (waiting :
      System.fromBoot device chip scrambled info events =
        .looping requested heard .waitcommand ctx m)
    {image : List UInt8}
    {uss : Option (Vector UInt8 32)}
    (sized : 1 ≤ image.length ∧ image.length ≤ 0x20000)
    {load : Request}
    {blocks : List Request}
    (announces : load.Announces image uss)
    (sends : SendsImage image blocks) :
    ∃ link,
      exchange device (.waitingFor (.initial []) ctx m) (load :: blocks) =
          some link ∧
        link.Ready image uss := by
  have sound := sound_fromBoot device chip scrambled info events
  have idle : (Uart.initial []).Delivers [] :=
    .between [] (fun _ member => by cases member) rfl rfl
  rw [waiting] at sound
  cases sound with
  | looping invariant =>
      cases invariant with
      | waiting plan fresh isPlan isClient harmless =>
          obtain ⟨between, served, loads⟩ :=
            @Link.serve_announcement device
              (.waitingFor (.initial []) plan.context m) plan rfl idle rfl _ _
              _ announces sized
          obtain ⟨whole, -⟩ :=
            @Link.Loads.exchange device _ _ _ _ _ loads _ sends
          rw [announces.uss, List.nil_append] at whole
          rw [exchange, served]
          exact whole

/--
The host loads an app: it sends the frames for it in USB packets, and the
firmware reads, stores and measures the app.  When the host has collected what
the device has written it ends with the reply that carries the digest.
-/
theorem host_loads_app
    (device : Device)
    (chip : FlashChip)
    (scrambled : Memory)
    (info : Reset)
    (events : List Event)
    {requested : Reset}
    {heard : List Incoming}
    {ctx : Context}
    {m : Machine}
    (waiting :
      System.fromBoot device chip scrambled info events =
        .looping requested heard .waitcommand ctx m)
    {image : List UInt8}
    {uss : Option (Vector UInt8 32)}
    (sized : 1 ≤ image.length ∧ image.length ≤ 0x20000)
    {load : Frame}
    {blocks : List Frame}
    (announces : load.request.Announces image uss)
    (sends : SendsImage image (blocks.map Frame.request))
    {active resetKeep : UInt8}
    {before later : List Ch552.Event}
    {packets : List (Frame × List (List UInt8))}
    (host : HostSends active resetKeep before later packets)
    (frames : packets.map Prod.fst = load :: blocks) :
    ∃ link,
      (Link.waitingFor
            (.initial
              ((Ch552.Chip.boot resetKeep).run active (before ++ later)).tx)
            ctx m).readFrames
          device ((image.length + 126) / 127 + 1) =
        some link ∧
      link.Ready image uss ∧
      ∀ (writes : List Write) (earlier : List (List UInt8))
          (lineEvents : List Ch552.LineEvent),
        cdcWrites writes = earlier ++ link.machine.replies →
        ioCdc &&& active ≠ 0 →
        (∀ write, write ∈ writes → write.Legal active) →
        (Ch552.Line.writing resetKeep writes).Spared active lineEvents →
        ((Ch552.Line.writing resetKeep writes).run active lineEvents).work =
          0 →
        ∃ header front padding,
          (((Ch552.Line.writing resetKeep writes).run active
              lineEvents).chip.ins .ep2).given.flatten =
            front ++
              header :: fwRspLoadAppDataReady :: statusOk ::
                (blake2sDigest 32 [] image).toList ++ padding := by
  obtain ⟨link, exchanged, ready⟩ :=
    exchange_image device chip scrambled info events waiting sized announces
      sends
  have idle : (Uart.initial []).Delivers [] :=
    .between [] (fun _ member => by cases member) rfl rfl
  have reads := host.readsFrames
  rw [frames] at reads
  have asRequests :
      (load.request :: blocks.map Frame.request).map Request.frame =
        load :: blocks := by
    rw [List.map_cons, List.map_map]
    exact congrArg (load :: ·) (List.map_id' blocks)
  rw [← asRequests] at reads
  obtain ⟨uart, readAll⟩ := Link.readFrames_exchange idle exchanged reads
  refine ⟨{ link with uart := uart }, ?_, ?_, ?_⟩
  · rw [List.length_cons, sends.count] at readAll
    exact readAll
  · exact
      ⟨ready.state, ready.stored, ready.size, ready.measured, ready.replied,
        ready.uss⟩
  · intro writes earlier lineEvents isWritten isActive legal spared done
    obtain ⟨header, padding, last⟩ := ready.replied
    obtain ⟨front, isLast⟩ := List.getLast?_eq_some_iff.mp last
    have collected :=
      ((Ch552.Line.serves_writing resetKeep legal lineEvents []
        (by rw [List.append_nil]; exact spared)).1.collected legal).finished
        done .ep2
    refine ⟨header, earlier.flatten ++ front.flatten, padding, ?_⟩
    rw [collected, receivedAll_cdc isActive, isWritten, isLast,
      List.flatten_append, List.flatten_append, List.flatten_singleton]
    simp only [List.append_assoc]

end Loading

section Samples

/-- The frames for an app of one byte. -/
def loadFrames : List Frame :=
  [fullFrame [3, 1] (by decide), fullFrame [5, 0xAB] (by decide)]

/-- Each of them is sent in three USB packets. -/
def loadPackets : List (Frame × List (List UInt8)) :=
  loadFrames.map fun frame =>
    (frame,
      [frame.bytes.take 64, (frame.bytes.drop 64).take 64,
        frame.bytes.drop 128])

/-- The host sends a packet an iteration of the loop after the one before. -/
def sendLater (data : List UInt8) : List Ch552.Event :=
  if short : data.length ≤ 64 then
    List.replicate 13 .main ++
      [.outToken .ep2 true { data := data, short := short }]
  else
    []

def loadEvents : List Ch552.Event :=
  .setConfiguration 1 :: (loadPackets.flatMap Prod.snd).flatMap sendLater

theorem host_loadEvents :
    HostSends (Ch552.activeEndpoints 0) 0 loadEvents
      (List.replicate 13 .main) loadPackets where
  regular packet member := by
    have all :
        ∀ packet ∈
          (Ch552.Chip.boot 0).accepted (Ch552.activeEndpoints 0)
            (loadEvents ++ List.replicate 13 .main),
          packet.1 = .ep2 := by
      decide +kernel
    rw [all packet member]
    trivial
  keeps during isDuring := by
    have runs :
        ∀ count, count < 14 →
          (((Ch552.Chip.boot 0).run (Ch552.activeEndpoints 0) loadEvents).run
            (Ch552.activeEndpoints 0)
            (List.replicate count .main)).Running := by
      unfold Ch552.Chip.Running
      decide +kernel
    obtain ⟨short, all⟩ := List.prefix_replicate_iff.mp isDuring
    rw [all]
    exact runs _ (Nat.lt_succ_of_le short)
  own := by
    unfold Own
    decide +kernel
  sent := by decide +kernel
  iteration := by decide
  quiet := by decide +kernel

/-- The replies to the frames, of which the last one carries the digest. -/
def loadReplies : List (List UInt8) :=
  [[0x11, fwRspLoadApp, statusOk, 0, 0],
    0x13 :: fwRspLoadAppDataReady :: statusOk ::
      (blake2sDigest 32 [] [0xAB]).toList ++ List.replicate 94 0]

/--
The replies come in packets of 5, 64, 64 and 1 bytes.  The host collects each,
and the empty packet that follows when the controller sends one.
-/
def replyEvents : List Ch552.LineEvent :=
  .setConfiguration 1 :: [5, 64, 64, 1].flatMap fun payload =>
    List.replicate (2 + payload) .receive ++
      (List.replicate 28 .main ++ [.inToken .ep2]) ++
        (List.replicate 14 .main ++ [.inToken .ep2])

/-- The host loads an app of one byte, and receives the digest. -/
theorem host_loads_app_sample :
    let writes := loadReplies.map (Write.mk ioCdc)
    ∃ link,
      (Link.waitingFor
            (.initial
              ((Ch552.Chip.boot 0).run (Ch552.activeEndpoints 0)
                (loadEvents ++ List.replicate 13 .main)).tx)
            Link.waiting.ctx Link.waiting.machine).readFrames
          .sample 2 =
        some link ∧
      link.Ready [0xAB] none ∧
      link.machine.replies = loadReplies ∧
      ∃ header front padding,
        (((Ch552.Line.writing 0 writes).run (Ch552.activeEndpoints 0)
            replyEvents).chip.ins .ep2).given.flatten =
          front ++
            header :: fwRspLoadAppDataReady :: statusOk ::
              (blake2sDigest 32 [] [0xAB]).toList ++ padding := by
  intro writes
  have announces :
      (Frame.request (fullFrame [3, 1] (by decide))).Announces [0xAB] none :=
    { loads := ⟨rfl, rfl⟩
      size := rfl
      uss := rfl }
  have carries :
      (fullFrame [5, 0xAB] (by decide)).incoming.Carries
        ((fullFrame [5, 0xAB] (by decide)).command.2.toList.drop 1) :=
    ⟨_, _, Frame.readcommand_incoming _, ⟨rfl, rfl⟩, rfl⟩
  have length :
      ([5, 0xAB] ++ List.replicate 126 (0 : UInt8)).length = 128 := by
    rw [List.length_append, List.length_replicate]
    rfl
  have starts :
      [0xAB] <+:
        (fullFrame [5, 0xAB] (by decide)).command.2.toList.drop 1 :=
    ⟨List.replicate 126 0,
      congrArg (List.drop 1) (toList_toVector length).symm⟩
  have sends :
      SendsImage [0xAB]
        ([fullFrame [5, 0xAB] (by decide)].map Frame.request) :=
    .last (Frame.request (fullFrame [5, 0xAB] (by decide))) _ carries
      (List.cons_ne_nil _ _) starts
  obtain ⟨link, readAll, ready, collects⟩ :=
    host_loads_app .sample (.provisioned .sample) (fun _ => 0) .fromClient
      [.iteration .failed] fromBoot_waiting (by decide) announces sends
      host_loadEvents rfl
  have replies :
      ((Link.waitingFor
            (.initial
              ((Ch552.Chip.boot 0).run (Ch552.activeEndpoints 0)
                (loadEvents ++ List.replicate 13 .main)).tx)
            Link.waiting.ctx Link.waiting.machine).readFrames
          .sample 2).map (fun link => link.machine.replies) =
        some loadReplies := by
    decide +kernel
  have replied : link.machine.replies = loadReplies :=
    Option.some.inj ((congrArg (Option.map _) readAll).symm.trans replies)
  have written : cdcWrites writes = [] ++ link.machine.replies := by
    rw [replied]
    rfl
  have legal (write : Write) (member : write ∈ writes) :
      write.Legal (Ch552.activeEndpoints 0) := by
    obtain ⟨reply, -, rfl⟩ := List.mem_map.mp member
    have notFido : Ch552.sinkOf (Ch552.activeEndpoints 0) ioCdc ≠ .fido := by
      decide
    exact
      ⟨show ioCdc ∈ Ch552.UartToUsb.frameModes by decide,
        fun isFido => absurd isFido notFido⟩
  exact
    ⟨link, readAll, ready, replied,
      collects writes [] replyEvents written (by decide) legal
        (by decide +kernel) (by decide +kernel)⟩

end Samples

end TKey
