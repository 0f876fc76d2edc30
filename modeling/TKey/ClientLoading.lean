import TKey.FrameStream
import TKey.MeasuredStart

namespace TKey

open ByteMemory ChunkedStream

/-!
# Loading an app from the client

The main loop on top of the UART: the client sends requests, each in packets of
its own, and waits for the reply to one before it sends the next.
-/

section Link

/-- The firmware in its main loop and the UART that it reads from. -/
structure Link where
  uart : Uart
  state : FwState
  ctx : Context
  machine : Machine

/-- The main loop with what `readcommand` has returned. -/
def react
    (device : Device)
    (received : Option (FrameHeader × Vector UInt8 128))
    (state : FwState)
    (ctx : Context) : Fw Next :=
  match received with
  | none => return .loop .fail ctx
  | some (hdr, cmd) => do
      let next ←
        if state = .waitcommand then
          initialCommands device hdr cmd state ctx
        else
          loadingCommands hdr cmd state ctx
      return .loop next.1 next.2

/-- More packets arrive. -/
def Uart.sent (uart : Uart) (packets : List Packet) : Uart :=
  { uart with rx := uart.rx ++ wire packets }

/--
The firmware reads a frame that is sent in packets; `none` when it does not read
at all, waits for more or stops.
-/
def Link.serve
    (device : Device)
    (packets : List Packet)
    (link : Link) : Option Link :=
  if link.state.reads then
    match Uart.readcommand.run (link.uart.sent packets) with
    | .error _ _ => none
    | .ok received uart =>
        match (react device received link.state link.ctx).run
          link.machine with
        | .ok (.loop state ctx) m =>
            some { uart := uart, state := state, ctx := ctx, machine := m }
        | _ => none
  else
    none

/-- A frame and the packets that it is sent in. -/
structure Request where
  frame : Frame
  packets : List Packet
  known : Known packets
  carries : (cdcChunks packets).flatten = frame.bytes

/-- The client sends requests, one after the other. -/
def exchange (device : Device) (link : Link) :
    List Request → Option Link
  | [] => some link
  | request :: requests =>
      (link.serve device request.packets).bind fun link' =>
        exchange device link' requests

/-- What the main loop is told about a frame. -/
def Frame.incoming (frame : Frame) : Incoming :=
  .frame frame.header frame.command.2

theorem Frame.readcommand_incoming (frame : Frame) :
    readcommand frame.incoming = some frame.command := by
  simp only [readcommand, incoming, frame.parses,
    if_neg (not_not_intro frame.endpoint)]
  rfl

/-- An iteration of the main loop reacts to what it has read. -/
theorem iterate_eq_react
    {state : FwState}
    (reads : state.reads = true)
    (device : Device)
    (incoming : Incoming)
    (ctx : Context) :
    iterate device incoming state ctx =
      react device (readcommand incoming) state ctx := by
  cases state with
  | waitcommand =>
      cases frame : readcommand incoming with
      | none =>
          simp only [iterate, frame, react]
      | some read =>
          simp only [iterate, frame, react, if_pos]
  | loading =>
      cases frame : readcommand incoming with
      | none =>
          simp only [iterate, frame, react]
      | some read =>
          simp only [iterate, frame, react]
          rfl
  | initial | loadFlash | loadFlashMgmt | start | fail =>
      cases reads

/-- More packets deliver more chunks. -/
theorem Uart.Delivers.sent
    {uart : Uart}
    {chunks : List (List UInt8)}
    (delivers : uart.Delivers chunks)
    {packets : List Packet}
    (known : Known packets) :
    (uart.sent packets).Delivers (chunks ++ cdcChunks packets) := by
  have appended (before : List Packet) :
      cdcChunks (before ++ packets) =
          cdcChunks before ++ cdcChunks packets ∧
        wire (before ++ packets) = wire before ++ wire packets :=
    ⟨List.filterMap_append, List.flatMap_append⟩
  have both {before : List Packet} (known' : Known before) :
      Known (before ++ packets) := by
    intro packet member
    rcases List.mem_append.mp member with inBefore | inPackets
    · exact known' packet inBefore
    · exact known packet inPackets
  cases delivers with
  | between before known' usedUp rx =>
      rw [← (appended before).1]
      refine .between _ (both known') usedUp ?_
      rw [(appended before).2, ← rx]
      rfl
  | within selected =>
      obtain ⟨before, known', rx, rfl⟩ := selected.later
      rw [List.cons_append, ← (appended before).1]
      refine .within ?_
      exact {
        endpoint := selected.endpoint
        len := selected.len
        nonempty := selected.nonempty
        later := ⟨before ++ packets, both known', by
          rw [(appended before).2, ← List.append_assoc, ← rx]
          rfl, rfl⟩ }

/-- A request to an idle firmware is read, and nothing is left of it. -/
theorem Uart.Delivers.readcommand_request
    {uart : Uart}
    (idle : uart.Delivers [])
    (request : Request) :
    ∃ uart',
      readcommand.run (uart.sent request.packets) =
          .ok (some request.frame.command) uart' ∧
        uart'.Delivers [] := by
  have delivers := idle.sent request.known
  rw [List.nil_append] at delivers
  have all :
      (cdcChunks request.packets).flatten =
        request.frame.bytes ++ [] := by
    rw [request.carries, List.append_nil]
  obtain ⟨uart', returns, left⟩ :=
    delivers.readcommand_returns request.frame all
      fun inner inPayload beforeEnd boundary =>
        ⟨_, by rw [List.take_length, request.carries]⟩
  rw [← request.carries, chop_all] at left
  exact ⟨uart', returns, left⟩

/--
Whatever bytes arrive, what `readcommand` makes of them is what it makes of a
header byte and the contents of the command buffer.
-/
theorem Uart.readcommand_refines
    {uart uart' : Uart}
    {received : Option (FrameHeader × Vector UInt8 128)}
    (returns : Uart.readcommand.run uart = .ok received uart') :
    ∃ incoming, TKey.readcommand incoming = received := by
  cases received with
  | none =>
      exact ⟨.failed, rfl⟩
  | some received =>
      rw [Uart.readcommand] at returns
      obtain ⟨selected, _, _, returns⟩ := Io.run_bind_inv returns
      cases selected with
      | none =>
          cases returns
      | some available =>
          obtain ⟨first, _, _, returns⟩ := Io.run_bind_inv returns
          cases first with
          | none =>
              cases returns
          | some first =>
              cases parses : parseframe (first.headD 0) with
              | none =>
                  simp only [parses] at returns
                  cases returns
              | some hdr =>
                  simp only [parses] at returns
                  rw [Io.run_get_bind] at returns
                  obtain ⟨payload, _, _, returns⟩ :=
                    Io.run_bind_inv returns
                  cases payload with
                  | none =>
                      cases returns
                  | some cmd =>
                      by_cases endpoint : hdr.endpoint ≠ dstFw
                      · simp only [if_pos endpoint] at returns
                        cases returns
                      · simp only [if_neg endpoint] at returns
                        cases returns
                        refine
                          ⟨.frame (first.headD 0) (toVector 128 cmd), ?_⟩
                        simp only [TKey.readcommand, parses,
                          if_neg endpoint]

/-- A service is an iteration of the main loop with some frame. -/
theorem Link.serve_refines
    {device : Device}
    {packets : List Packet}
    {link link' : Link}
    (served : link.serve device packets = some link') :
    ∃ incoming, ∀ requested heard,
      System.step device
          (.looping requested heard link.state link.ctx link.machine)
          (.iteration incoming) =
        .looping requested (heard ++ [incoming]) link'.state link'.ctx
          link'.machine := by
  rw [serve] at served
  by_cases reads : link.state.reads = true
  case neg =>
    rw [if_neg reads] at served
    cases served
  rw [if_pos reads] at served
  cases returned :
      Uart.readcommand.run (link.uart.sent packets) with
  | error stop uart =>
      rw [returned] at served
      cases served
  | ok received uart =>
      rw [returned] at served
      obtain ⟨incoming, frame⟩ := Uart.readcommand_refines returned
      refine ⟨incoming, fun requested heard => ?_⟩
      rw [System.step, System.hearing, if_pos reads,
        iterate_eq_react reads, frame]
      simp only at served
      cases reacted :
          (react device received link.state link.ctx).run
            link.machine with
      | error stop m =>
          rw [reacted] at served
          cases served
      | ok next m =>
          rw [reacted] at served
          cases next with
          | loop state ctx =>
              cases served
              rfl
          | jump ctx =>
              cases served

/-- A request is served by an iteration of the main loop with its frame. -/
theorem Link.serve_request
    {device : Device}
    {link : Link}
    (idle : link.uart.Delivers [])
    (reads : link.state.reads = true)
    (request : Request)
    {state : FwState}
    {ctx : Context}
    {m : Machine}
    (ran :
      (iterate device request.frame.incoming link.state link.ctx).run
          link.machine =
        .ok (.loop state ctx) m) :
    ∃ uart,
      link.serve device request.packets =
          some { uart := uart, state := state, ctx := ctx, machine := m } ∧
        uart.Delivers [] := by
  obtain ⟨uart, returns, left⟩ := idle.readcommand_request request
  rw [iterate_eq_react reads, request.frame.readcommand_incoming] at ran
  refine ⟨uart, ?_, left⟩
  rw [serve, if_pos reads, returns]
  simp only
  rw [ran]

end Link

section Iterations

variable {device : Device} {incoming : Incoming} {ctx : Context} {m : Machine}

/-- The waiting firmware accepts the announcement of an app. -/
theorem Iteration.of_announces
    {result : EStateM.Result Stop Machine Next}
    {cmd : Vector UInt8 128}
    (announces : incoming.Announces cmd)
    (iteration :
      Iteration device incoming ctx m .waitcommand result) :
    ∃ replies,
      result =
        .ok (.loop .loading (ctx.announced cmd))
          ((m.announced cmd).replying replies) := by
  obtain ⟨hdr, frame, loads, sized⟩ := announces
  cases iteration with
  | refusedCommand refused =>
      exact absurd loads (refused hdr cmd frame).2
  | answered hdr' cmd' replies frame' harmless =>
      rw [frame] at frame'
      cases frame'
      rcases harmless with (⟨query, _⟩ | ⟨query, _⟩) | ⟨_, notSized⟩
      · rw [loads.1] at query
        exact absurd query (by decide)
      · rw [loads.1] at query
        exact absurd query (by decide)
      · exact absurd sized notSized
  | announced hdr' cmd' replies frame' loads' sized' =>
      rw [frame] at frame'
      cases frame'
      exact ⟨replies, rfl⟩
  | noApp state isFlash missing =>
      rcases isFlash with same | same <;> cases same
  | largeApp state isFlash slot isSlot large =>
      rcases isFlash with same | same <;> cases same

/-- The loading firmware never leaves app RAM. -/
theorem Loading.no_fault
    {plan : StartPlan}
    {cmd : Vector UInt8 128}
    {blocks : List (List UInt8)}
    (loading : Loading plan cmd blocks ctx m) :
    ¬ (¬ InRam ctx.loadaddr (chunkLength ctx.left).toNat ∨
      ¬ m.appSize.toNat ≤ 0x20000) := by
  obtain ⟨inRam, _, fits⟩ := loading.in_ram
  rintro (outside | large)
  · exact outside inRam
  · exact large fits

/-- The loading firmware accepts a block that does not end the app. -/
theorem Iteration.of_carries
    {result : EStateM.Result Stop Machine Next}
    {plan : StartPlan}
    {cmd : Vector UInt8 128}
    {blocks : List (List UInt8)}
    (loading : Loading plan cmd blocks ctx m)
    {block : List UInt8}
    (carries : incoming.Carries block)
    (more : ctx.advanced.left ≠ 0)
    (iteration : Iteration device incoming ctx m .loading result) :
    ∃ m',
      result = .ok (.loop .loading ctx.advanced) m' ∧
        Loading plan cmd (blocks ++ [block]) ctx.advanced m' := by
  obtain ⟨hdr, data, frame, isData, rfl⟩ := carries
  cases iteration with
  | refusedData refused =>
      exact absurd isData (refused hdr data frame)
  | moreData hdr' data' replies frame' isData' inRam more' =>
      rw [frame] at frame'
      cases frame'
      exact ⟨_, rfl, loading.more_data data more replies⟩
  | lastData hdr' data' replies frame' isData' inRam last fits =>
      exact absurd last more
  | dataFault ram outside =>
      exact absurd outside loading.no_fault
  | noApp state isFlash missing =>
      rcases isFlash with same | same <;> cases same
  | largeApp state isFlash slot isSlot large =>
      rcases isFlash with same | same <;> cases same

/-- The last reply of the loading firmware. -/
def readyReply
    (hdr : FrameHeader)
    (digest : Vector UInt8 32) : List UInt8 :=
  genhdr hdr.id hdr.endpoint 0 3 :: fwRspLoadAppDataReady ::
    (toVector 128 (statusOk :: digest.toList)).toList.take 127

theorem fwreply_ready_run
    (hdr : FrameHeader)
    (digest : Vector UInt8 32)
    (m : Machine) :
    (fwreply hdr fwRspLoadAppDataReady
        (toVector 128 (statusOk :: digest.toList))).run m =
      .ok () (m.replying (m.replies ++ [readyReply hdr digest])) := by
  have code : responseLen fwRspLoadAppDataReady = some 3 := by
    decide
  have len : (bytelen 3).getD 0 - 1 = 127 := by
    decide
  rw [fwreply, code]
  simp only [len]
  rfl

/-- The block that ends the app is answered with the digest of the app. -/
theorem iterate_loading_last
    {hdr : FrameHeader}
    {data : Vector UInt8 128}
    (frame : readcommand incoming = some (hdr, data))
    (isData : IsLoadAppData hdr data)
    (inRam : InRam ctx.loadaddr (chunk data ctx.left).length)
    (last : ctx.advanced.left = 0)
    (fits : m.appSize.toNat ≤ 0x20000) :
    (iterate device incoming .loading ctx).run m =
      .ok
        (.loop .start
          { ctx.advanced with digest := (m.received data ctx).measured })
        ((m.received data ctx).replying
          (m.replies ++
            [readyReply hdr (m.received data ctx).measured])) := by
  have stored := storeBytes_run inRam m
  have measured : (some (m.received data ctx).measured).isSome = true :=
    rfl
  have sameSize : (m.received data ctx).appSize.toNat ≤ 0x20000 := fits
  have loads :
      (loadingCommands hdr data .loading ctx).run m =
        .ok
          (.start,
            { ctx.advanced with
              digest := (m.received data ctx).measured })
          ((m.received data ctx).replying
            (m.replies ++
              [readyReply hdr (m.received data ctx).measured])) := by
    rw [loadingCommands, if_pos isData.1,
      if_neg (not_not_intro isData.2)]
    refine (Fw.run_bind_of_ok stored _).trans ?_
    refine
      (congrArg (fun program : Fw (FwState × Context) =>
        program.run (m.received data ctx)) (if_pos last)).trans ?_
    rw [Fw.run_bind_of_ok (computeAppDigest_run sameSize),
      Fw.run_assert_bind measured]
    exact
      Fw.run_bind_of_ok
        (fwreply_ready_run hdr (m.received data ctx).measured
          (m.received data ctx)) _
  simp only [iterate, frame]
  exact Fw.run_bind_of_ok loads _

end Iterations

section Upload

/-- A request that announces an app by its size, and perhaps a USS. -/
structure Request.Announces
    (request : Request)
    (image : List UInt8)
    (uss : Option (Vector UInt8 32)) : Prop where
  loads : IsLoadApp request.frame.command.1 request.frame.command.2
  size :
    (requestedSize request.frame.command.2).toNat = image.length
  uss : announcedUss request.frame.command.2 = uss

/-- Requests that carry an image in blocks, the last one padded. -/
inductive SendsImage : List UInt8 → List Request → Prop where
  | last {rest : List UInt8}
      (request : Request)
      (block : List UInt8)
      (carries : request.frame.incoming.Carries block)
      (nonempty : rest ≠ [])
      (starts : rest <+: block) :
      SendsImage rest [request]
  | more {rest : List UInt8} {requests : List Request}
      (request : Request)
      (block : List UInt8)
      (carries : request.frame.incoming.Carries block)
      (later : SendsImage rest requests) :
      SendsImage (block ++ rest) (request :: requests)

/-- The firmware has stored what was sent and waits for the rest. -/
structure Link.Loads
    (plan : StartPlan)
    (cmd : Vector UInt8 128)
    (sent rest : List UInt8)
    (link : Link) : Prop where
  state : link.state = .loading
  idle : link.uart.Delivers []
  loading :
    ∃ blocks,
      blocks.flatten = sent ∧
        Loading plan cmd blocks link.ctx link.machine
  size : (requestedSize cmd).toNat = sent.length + rest.length

/-- The firmware has loaded an image, measured it and told the client. -/
structure Link.Ready
    (image : List UInt8)
    (uss : Option (Vector UInt8 32))
    (link : Link) : Prop where
  state : link.state = .start
  stored : read link.machine.ram ramBase.toNat image.length = image
  size : link.machine.appSize.toNat = image.length
  measured : link.ctx.digest = blake2sDigest 32 [] image
  replied :
    ∃ header padding,
      link.machine.replies.getLast? =
        some
          (header :: fwRspLoadAppDataReady :: statusOk ::
            (blake2sDigest 32 [] image).toList ++ padding)
  uss : link.ctx.givenUss = uss

theorem Incoming.Carries.length_eq
    {incoming : Incoming}
    {block : List UInt8}
    (carries : incoming.Carries block) :
    block.length = 127 := by
  obtain ⟨_, cmd, _, _, rfl⟩ := carries
  exact length_block cmd

theorem SendsImage.nonempty
    {rest : List UInt8}
    {requests : List Request}
    (sends : SendsImage rest requests) :
    0 < rest.length := by
  induction sends with
  | last request block carries nonempty starts =>
      exact List.length_pos_of_ne_nil nonempty
  | more request block carries later inductionHypothesis =>
      rw [List.length_append]
      exact Nat.add_pos_right _ inductionHypothesis

/-- An image is sent in as many blocks as it takes. -/
theorem SendsImage.count
    {rest : List UInt8}
    {requests : List Request}
    (sends : SendsImage rest requests) :
    requests.length = (rest.length + 126) / 127 := by
  induction sends with
  | last request block carries nonempty starts =>
      have short := starts.length_le
      rw [carries.length_eq] at short
      have positive := List.length_pos_of_ne_nil nonempty
      rw [List.length_singleton]
      omega
  | more request block carries later inductionHypothesis =>
      rw [List.length_cons, inductionHypothesis, List.length_append,
        carries.length_eq]
      omega

variable {device : Device} {link : Link} {plan : StartPlan}
  {cmd : Vector UInt8 128}

/-- What is left is the length of the rest. -/
theorem Link.Loads.left
    {sent rest : List UInt8}
    (loads : link.Loads plan cmd sent rest) :
    link.ctx.left.toNat = rest.length := by
  obtain ⟨blocks, rfl, loading⟩ := loads.loading
  have balance := loading.balance
  have size := loads.size
  rw [← loading.size, ← balance] at size
  exact Nat.add_left_cancel size

/-- After the announcement the firmware waits for the whole image. -/
theorem Link.serve_announcement
    (waiting : link.state = .waitcommand)
    (idle : link.uart.Delivers [])
    (planned : link.ctx = plan.context)
    {request : Request}
    {image : List UInt8}
    {uss : Option (Vector UInt8 32)}
    (announces : request.Announces image uss)
    (sized : 1 ≤ image.length ∧ image.length ≤ 0x20000) :
    ∃ link',
      link.serve device request.packets = some link' ∧
        link'.Loads plan request.frame.command.2 [] image := by
  have appSize : AppSize (requestedSize request.frame.command.2) := by
    rw [AppSize, announces.size]
    exact sized
  have reads : link.state.reads = true := by
    rw [waiting]
    rfl
  have outcome :=
    iterate_outcome device request.frame.incoming .waitcommand link.ctx
      link.machine
  obtain ⟨replies, ran⟩ :=
    outcome.of_announces
      ⟨_, request.frame.readcommand_incoming, announces.loads, appSize⟩
  rw [← waiting] at ran
  obtain ⟨uart, served, idle'⟩ := serve_request idle reads request ran
  refine ⟨_, served, ?_⟩
  exact {
    state := rfl
    idle := idle'
    loading := ⟨[], rfl, by
      rw [planned]
      exact loading_announced plan _ appSize replies link.machine⟩
    size := by
      rw [announces.size, List.length_nil, Nat.zero_add] }

/-- A block that does not end the image brings the loading forward. -/
theorem Link.Loads.serve_more
    {sent block rest : List UInt8}
    (loads : link.Loads plan cmd sent (block ++ rest))
    {request : Request}
    (carries : request.frame.incoming.Carries block)
    (more : 0 < rest.length) :
    ∃ link',
      link.serve device request.packets = some link' ∧
        link'.Loads plan cmd (sent ++ block) rest := by
  have reads : link.state.reads = true := by
    rw [loads.state]
    rfl
  have left := loads.left
  rw [List.length_append, carries.length_eq] at left
  have notLast : link.ctx.advanced.left ≠ 0 := by
    intro last
    have advanced := toNat_advanced_left link.ctx
    have zero : (0 : UInt32).toNat = 0 := rfl
    rw [last, zero] at advanced
    omega
  obtain ⟨blocks, rfl, loading⟩ := loads.loading
  have outcome :=
    iterate_outcome device request.frame.incoming .loading link.ctx
      link.machine
  obtain ⟨m', ran, loading'⟩ := outcome.of_carries loading carries notLast
  rw [← loads.state] at ran
  obtain ⟨uart, served, idle'⟩ :=
    serve_request loads.idle reads request ran
  refine ⟨_, served, ?_⟩
  exact {
    state := loads.state
    idle := idle'
    loading := ⟨blocks ++ [block], by
      rw [List.flatten_append, List.flatten_singleton], loading'⟩
    size := by
      rw [loads.size, List.length_append, List.length_append,
        Nat.add_assoc] }

/-- The last reply carries the digest. -/
theorem readyReply_eq
    (hdr : FrameHeader)
    (digest : Vector UInt8 32) :
    ∃ header padding,
      readyReply hdr digest =
        header :: fwRspLoadAppDataReady :: statusOk ::
          digest.toList ++ padding := by
  have length : (statusOk :: digest.toList).length = 33 := by
    rw [List.length_cons, Vector.length_toList]
  have padded :=
    toList_toVector_append
      (Nat.le_trans (Nat.le_of_eq length) (by decide : 33 ≤ 128))
  rw [readyReply, padded,
    List.take_append,
    List.take_of_length_le
      (Nat.le_trans (Nat.le_of_eq length) (by decide : 33 ≤ 127))]
  exact ⟨_, _, rfl⟩

/-- The block that ends the image completes and measures it. -/
theorem Link.Loads.serve_last
    {sent block rest : List UInt8}
    (loads : link.Loads plan cmd sent rest)
    {request : Request}
    (carries : request.frame.incoming.Carries block)
    (starts : rest <+: block) :
    ∃ link',
      link.serve device request.packets = some link' ∧
        link'.Ready (sent ++ rest) (announcedUss cmd) := by
  have reads : link.state.reads = true := by
    rw [loads.state]
    rfl
  have left := loads.left
  have short := starts.length_le
  rw [carries.length_eq] at short
  have small : min link.ctx.left.toNat 127 = link.ctx.left.toNat := by
    omega
  have last : link.ctx.advanced.left = 0 := by
    apply UInt32.toNat_inj.mp
    rw [toNat_advanced_left, small, Nat.sub_self]
    rfl
  obtain ⟨hdr, data, frame, isData, rfl⟩ := carries
  obtain ⟨blocks, rfl, loading⟩ := loads.loading
  obtain ⟨inRam, _, fits⟩ := loading.in_ram
  have length :
      (chunk data link.ctx.left).length =
        (chunkLength link.ctx.left).toNat := by
    rw [chunk, List.length_take, length_block, toNat_chunkLength]
    omega
  rw [← length] at inRam
  have ran :=
    @iterate_loading_last device _ link.ctx link.machine _ _ frame
      isData inRam last fits
  rw [← loads.state] at ran
  obtain ⟨uart, served, idle'⟩ :=
    serve_request loads.idle reads request ran
  have received := loading.read_received data
  rw [small, left, ← List.prefix_iff_eq_take.mp starts,
    ← List.length_append] at received
  have size :
      (link.machine.received data link.ctx).appSize.toNat =
        (blocks.flatten ++ rest).length := by
    rw [List.length_append, ← loads.size, ← loading.size]
    rfl
  have measured :
      (link.machine.received data link.ctx).measured =
        blake2sDigest 32 [] (blocks.flatten ++ rest) := by
    rw [Machine.measured, Machine.image, size, received]
  obtain ⟨header, padding, reply⟩ :=
    readyReply_eq hdr (blake2sDigest 32 [] (blocks.flatten ++ rest))
  rw [measured] at served
  refine ⟨_, served, ?_⟩
  exact {
    state := rfl
    stored := received
    size := size
    measured := rfl
    replied := ⟨header, padding, by
      rw [← reply]
      exact List.getLast?_concat⟩
    uss := loading.context_eq.2 }

/-- Serving the requests of an image loads it, and takes all of them. -/
theorem Link.Loads.exchange
    {sent rest : List UInt8}
    (loads : link.Loads plan cmd sent rest)
    {requests : List Request}
    (sends : SendsImage rest requests) :
    (∃ link',
        TKey.exchange device link requests = some link' ∧
          link'.Ready (sent ++ rest) (announcedUss cmd)) ∧
      ∀ count,
        count < requests.length →
          ∃ link',
            TKey.exchange device link (requests.take count) =
                some link' ∧
              link'.state = .loading := by
  induction sends generalizing link sent with
  | last request block carries nonempty starts =>
      constructor
      · obtain ⟨link', served, ready⟩ :=
          @serve_last device _ _ _ _ _ _ loads _ carries starts
        refine ⟨link', ?_, ready⟩
        rw [TKey.exchange, served]
        rfl
      · intro count fewer
        obtain rfl : count = 0 := Nat.lt_one_iff.mp fewer
        exact ⟨link, rfl, loads.state⟩
  | more request block carries later inductionHypothesis =>
      obtain ⟨link', served, loads'⟩ :=
        @serve_more device _ _ _ _ _ _ loads _ carries later.nonempty
      obtain ⟨whole, parts⟩ := inductionHypothesis loads'
      rw [List.append_assoc] at whole
      constructor
      · rw [TKey.exchange, served]
        exact whole
      · intro count fewer
        cases count with
        | zero =>
            exact ⟨link, rfl, loads.state⟩
        | succ count =>
            rw [List.take_succ_cons, TKey.exchange, served]
            exact parts count (Nat.lt_of_succ_lt_succ fewer)

end Upload

section Confinement

variable {device : Device} {incoming : Incoming} {ctx : Context} {m : Machine}
  {plan : StartPlan} {cmd : Vector UInt8 128} {blocks : List (List UInt8)}

/-- What is left and the load address belong together. -/
theorem Loading.bounds (loading : Loading plan cmd blocks ctx m) :
    0 < ctx.left.toNat ∧
      ctx.left.toNat ≤ m.appSize.toNat ∧
      ctx.loadaddr.toNat =
        ramBase.toNat + m.appSize.toNat - ctx.left.toNat := by
  have balance := loading.balance
  have address := loading.address
  refine ⟨loading.more, ?_, ?_⟩
  · omega
  · omega

/-- A block is stored below the end of the announced app. -/
theorem Loading.ram_received
    (loading : Loading plan cmd blocks ctx m)
    (data : Vector UInt8 128)
    {address : Nat}
    (beyond : ramBase.toNat + m.appSize.toNat ≤ address) :
    (m.received data ctx).ram address = m.ram address := by
  obtain ⟨_, inApp, _⟩ := loading.in_ram
  apply write_outside
  right
  rw [chunk, List.length_take, length_block]
  omega

/-- The loading firmware stores nothing behind the announced app. -/
theorem Iteration.ram_beyond
    {result : EStateM.Result Stop Machine Next}
    (loading : Loading plan cmd blocks ctx m)
    (iteration : Iteration device incoming ctx m .loading result)
    {address : Nat}
    (beyond : ramBase.toNat + m.appSize.toNat ≤ address) :
    (resultMachine result).ram address = m.ram address := by
  cases iteration with
  | refusedData refused =>
      rfl
  | moreData hdr data replies frame isData inRam more =>
      exact loading.ram_received data beyond
  | lastData hdr data replies frame isData inRam last fits =>
      exact loading.ram_received data beyond
  | dataFault ram outside =>
      exact absurd outside loading.no_fault
  | noApp state isFlash missing =>
      rfl
  | largeApp state isFlash slot isSlot large =>
      rfl

/-- Anything but a block makes the loading firmware fail. -/
theorem Iteration.of_refused
    {result : EStateM.Result Stop Machine Next}
    (refused :
      ∀ hdr cmd, readcommand incoming = some (hdr, cmd) →
        ¬ IsLoadAppData hdr cmd)
    (loading : Loading plan cmd blocks ctx m)
    (iteration : Iteration device incoming ctx m .loading result) :
    result = .ok (.loop .fail ctx) m := by
  cases iteration with
  | refusedData refused' =>
      rfl
  | moreData hdr data replies frame isData inRam more =>
      exact absurd isData (refused hdr data frame)
  | lastData hdr data replies frame isData inRam last fits =>
      exact absurd isData (refused hdr data frame)
  | dataFault ram outside =>
      exact absurd outside loading.no_fault
  | noApp state isFlash missing =>
      rfl
  | largeApp state isFlash slot isSlot large =>
      rcases isFlash with same | same <;> cases same

/--
Client loading: a waiting firmware loads an image that the client announces and
sends, however the requests are split into packets, with exactly as many blocks
as the image takes, and a loading firmware stays inside of the announced app.
-/
theorem client_loading
    (device : Device)
    (chip : FlashChip)
    (scrambled : Memory)
    (info : Reset)
    (events : List Event) :
    (∀ requested heard ctx m uart image uss load requests,
        System.fromBoot device chip scrambled info events =
          .looping requested heard .waitcommand ctx m →
        Uart.Delivers uart [] →
        1 ≤ image.length ∧ image.length ≤ 0x20000 →
        Request.Announces load image uss →
        SendsImage image requests →
        requests.length = (image.length + 126) / 127 ∧
          (∃ link,
            exchange device
                { uart := uart
                  state := .waitcommand
                  ctx := ctx
                  machine := m }
                (load :: requests) =
              some link ∧
            link.Ready image uss) ∧
          ∀ count,
            count < requests.length →
            ∃ link,
              exchange device
                  { uart := uart
                    state := .waitcommand
                    ctx := ctx
                    machine := m }
                  (load :: requests.take count) =
                some link ∧
              link.state = .loading) ∧
      ∀ requested heard ctx m,
        System.fromBoot device chip scrambled info events =
          .looping requested heard .loading ctx m →
        0 < ctx.left.toNat ∧
          ctx.left.toNat ≤ m.appSize.toNat ∧
          ctx.loadaddr.toNat =
            ramBase.toNat + m.appSize.toNat - ctx.left.toNat ∧
          ∀ incoming,
            (∀ address,
              ramBase.toNat + m.appSize.toNat ≤ address →
              (System.fromBoot device chip scrambled info
                (events ++ [.iteration incoming])).machine.ram address =
                m.ram address) ∧
            ((∀ hdr cmd,
                readcommand incoming = some (hdr, cmd) →
                ¬ IsLoadAppData hdr cmd) →
              System.fromBoot device chip scrambled info
                  (events ++ [.iteration incoming]) =
                .looping requested (heard ++ [incoming]) .fail ctx m) := by
  have sound := sound_fromBoot device chip scrambled info events
  constructor
  · intro requested heard ctx m uart image uss load requests isWaiting idle
      sized announces sends
    rw [isWaiting] at sound
    cases sound with
    | looping invariant =>
        cases invariant with
        | waiting plan fresh isPlan isClient harmless =>
            obtain ⟨link, served, loads⟩ :=
              @Link.serve_announcement device
                { uart := uart
                  state := .waitcommand
                  ctx := plan.context
                  machine := m } plan rfl idle rfl _ _ _ announces sized
            obtain ⟨whole, parts⟩ :=
              @Link.Loads.exchange device _ _ _ _ _ loads _ sends
            rw [announces.uss, List.nil_append] at whole
            refine ⟨sends.count, ?_, ?_⟩
            · rw [exchange, served]
              exact whole
            · intro count fewer
              rw [exchange, served]
              exact parts count fewer
  · intro requested heard ctx m isLoading
    rw [isLoading] at sound
    cases sound with
    | looping invariant =>
        cases invariant with
        | loading plan cmd blocks fresh isPlan isClient transfer loading =>
            obtain ⟨more, notAll, address⟩ := loading.bounds
            refine ⟨more, notAll, address, fun incoming => ⟨?_, ?_⟩⟩
            · intro address beyond
              have outcome :=
                iterate_outcome device incoming .loading ctx m
              rw [System.fromBoot_append_singleton, isLoading, System.step,
                System.machine_afterIteration]
              exact outcome.ram_beyond loading beyond
            · intro refused
              have outcome :=
                iterate_outcome device incoming .loading ctx m
              rw [System.fromBoot_append_singleton, isLoading, System.step,
                outcome.of_refused refused loading]
              rfl

end Confinement

section Samples

/-- A full command for the firmware with the given first bytes. -/
def fullFrame (start : List UInt8) (short : start.length ≤ 128) : Frame where
  header := 0x13
  payload := start ++ List.replicate (128 - start.length) 0
  hdr := { id := 0, endpoint := 2, len := 128 }
  parses := by decide
  endpoint := rfl
  length := by
    rw [List.length_append, List.length_replicate]
    exact Nat.add_sub_of_le short

/-- A request in two packets with a packet of another endpoint in between. -/
def fullRequest
    (start : List UInt8)
    (short : start.length ≤ 128) : Request where
  frame := fullFrame start short
  packets :=
    [{ mode := ioCdc, payload := [0x13], short := by decide },
      { mode := ioFido, payload := [], short := by decide },
      { mode := ioCdc
        payload := (fullFrame start short).payload
        short :=
          Nat.le_trans (fullFrame start short).bounds.2 (by decide) }]
  known := by
    rintro packet (_ | ⟨_, _ | ⟨_, _ | ⟨_, member⟩⟩⟩)
    · exact .inl ⟨rfl, List.cons_ne_nil _ _⟩
    · exact .inr rfl
    · exact
        .inl
          ⟨rfl, List.ne_nil_of_length_pos (fullFrame start short).bounds.1⟩
    · cases member
  carries := by
    rw [cdcChunks_cons, cdcChunks_cons, cdcChunks_cons, Frame.bytes]
    exact congrArg _ (List.append_nil _)

/-- A reset record that asks for an app from the client. -/
def Reset.fromClient : Reset :=
  { Reset.zero with type := startClient }

/-- The firmware waits for the client. -/
def Link.waiting : Link where
  uart := .initial []
  state := .waitcommand
  ctx := StartPlan.context { source := .client, verDigest := none }
  machine := .booted .sample (fun _ => 0) .fromClient

theorem fromBoot_waiting :
    System.fromBoot .sample (.provisioned .sample) (fun _ => 0) .fromClient
        [.iteration .failed] =
      .looping .fromClient [] .waitcommand Link.waiting.ctx
        Link.waiting.machine := by
  have boots :
      System.boot (.provisioned .sample) (fun _ => 0) .fromClient =
        .looping .fromClient [] .initial Context.initial
          Link.waiting.machine :=
    boot_of_usable (usableCopy_provisioned _) _ _
  have sameInfo : Link.waiting.machine.resetinfo = .fromClient :=
    Machine.resetinfo_withCopy _ _
  have isPlan :
      Reset.fromClient.plan =
        some { source := .client, verDigest := none } := by
    decide
  rw [System.fromBoot, boots, System.run_cons, System.run_nil, System.step,
    iterate, Fw.run_bind_of_ok (startWhere_run Context.initial _), sameInfo,
    startDecision_initial, isPlan]
  rfl

/-- An app of one byte is loaded by two requests. -/
theorem client_loading_sample :
    ∃ link,
      exchange .sample .waiting
          [fullRequest [3, 1] (by decide),
            fullRequest [5, 0xAB] (by decide)] =
        some link ∧
      link.Ready [0xAB] none := by
  have announces :
      (fullRequest [3, 1] (by decide)).Announces [0xAB] none :=
    { loads := ⟨rfl, rfl⟩
      size := rfl
      uss := rfl }
  have carries :
      (fullRequest [5, 0xAB] (by decide)).frame.incoming.Carries
        ((fullRequest [5, 0xAB]
          (by decide)).frame.command.2.toList.drop 1) :=
    ⟨_, _, Frame.readcommand_incoming _, ⟨rfl, rfl⟩, rfl⟩
  have length :
      ([5, 0xAB] ++ List.replicate 126 (0 : UInt8)).length = 128 := by
    rw [List.length_append, List.length_replicate]
    rfl
  have starts :
      [0xAB] <+:
        (fullRequest [5, 0xAB]
          (by decide)).frame.command.2.toList.drop 1 :=
    ⟨List.replicate 126 0,
      congrArg (List.drop 1) (toList_toVector length).symm⟩
  have idle : Link.waiting.uart.Delivers [] :=
    .between [] (fun _ member => by cases member) rfl rfl
  have loading :=
    (client_loading .sample (.provisioned .sample) (fun _ => 0)
      .fromClient [.iteration .failed]).1
  obtain ⟨_, whole, _⟩ :=
    loading _ _ _ _ Link.waiting.uart [0xAB] none _ _ fromBoot_waiting
      idle (by decide) announces
      (.last _ _ carries (List.cons_ne_nil _ _) starts)
  exact whole

end Samples

end TKey
