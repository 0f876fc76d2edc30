import TKey.ReceiveInterrupts

namespace TKey.Ch552

open ByteMemory RingBuffer

/-!
# Bus resets within a stage

The interrupt for a bus reset can come between any two assignments of a stage.
Where no header or piece is half taken, and no endpoint half armed, it is as if
it had come before or behind the stage.
-/

section Definitions

/-- What the interrupt for a bus reset does to the handling of frames. -/
def UartToUsb.busReset (usb : UartToUsb) : UartToUsb :=
  { usb with
    ins := fun ep =>
      { usb.ins ep with uploadBusy := false, acks := false }
    uartRxBuf := usb.uartRxBuf.clear
    uartRxBufByteCount := 0
    frameMode := 0 }

/-- The interrupt for a bus reset between two accesses. -/
def Loop.busReset (loop : Loop) : Loop :=
  { loop with chip := loop.chip.busReset }

/-- The loop is within the stage that has begun at some point. -/
inductive Loop.Within (active : UInt8) (start : Loop) : Loop → Prop where
  | first
      (inside : (start.step active .main).point ≠ .entry) :
      Within active start (start.step active .main)
  | next {loop : Loop}
      (within : Within active start loop)
      (inside : (loop.step active .main).point ≠ .entry) :
      Within active start (loop.step active .main)

/-- No header and no piece is half taken. -/
def Point.Whole : Point → Prop
  | .entry => True
  | .counted => True
  | .testing _ => True
  | _ => False

/-- An assignment of the loop. -/
abbrev Assignment := UartToUsb → UartToUsb

namespace UartToUsb

/-- Assignments one after the other. -/
def assign (usb : UartToUsb) (assignments : List Assignment) : UartToUsb :=
  assignments.foldl (fun usb assignment => assignment usb) usb

/-- Assign to the fields of an endpoint. -/
def updateIn (ep : Endpoint) (change : InEndpoint → InEndpoint)
    (usb : UartToUsb) : UartToUsb :=
  { usb with ins := Function.update usb.ins ep (change (usb.ins ep)) }

/-- Copy `FrameBuf` to the buffer of an endpoint. -/
def fillBuffer (ep : Endpoint) (usb : UartToUsb) : UartToUsb :=
  usb.updateIn ep fun endpoint =>
    { endpoint with bufferTx := usb.bufferWithFrame ep }

/-- Clear the buffer of an endpoint. -/
def clearBuffer (ep : Endpoint) (usb : UartToUsb) : UartToUsb :=
  usb.updateIn ep fun endpoint =>
    { endpoint with
      bufferTx :=
        write endpoint.bufferTx 0 (List.replicate maxPacketSize 0) }

/-- Set the busy flag and the number of bytes, and answer ACK. -/
def answerAck (ep : Endpoint) (tLen : UartToUsb → Nat) : List Assignment :=
  [updateIn ep fun endpoint => { endpoint with uploadBusy := true },
    fun usb =>
      usb.updateIn ep fun endpoint => { endpoint with tLen := tLen usb },
    updateIn ep fun endpoint => { endpoint with acks := true }]

/-- Terminate frames of the packet size. -/
def markZeroLenPacket (usb : UartToUsb) : UartToUsb :=
  if usb.frameBufLength = maxPacketSize then
    { usb with cdcSendZeroLenPacket := true }
  else
    usb

def clearZeroLenPacket (usb : UartToUsb) : UartToUsb :=
  { usb with cdcSendZeroLenPacket := false }

def clearAvailable (sink : Sink) (usb : UartToUsb) : UartToUsb :=
  { usb with dataAvailable := Function.update usb.dataAvailable sink false }

def clearFrameBufLength (usb : UartToUsb) : UartToUsb :=
  { usb with frameBufLength := 0 }

def stopFrame (usb : UartToUsb) : UartToUsb :=
  { usb with frameStarted := false }

/-- Stop discarding when the frame is complete. -/
def endDiscarding (usb : UartToUsb) : UartToUsb :=
  if usb.frameRemainingBytes = 0 then
    { usb with frameDiscard := false }
  else
    usb

/-- The assignments of a stage that does not touch the ring. -/
def assignments (usb : UartToUsb) : Stage → List Assignment
  | .cdc =>
      if usb.dataAvailable .cdc ∧ ¬ (usb.ins .ep2).uploadBusy then
        fillBuffer .ep2 ::
          (answerAck .ep2 (fun usb => usb.frameBufLength) ++
            [markZeroLenPacket, clearAvailable .cdc, clearFrameBufLength,
              endOfFrame])
      else
        []
  | .zeroLenPacket =>
      if usb.cdcSendZeroLenPacket ∧ ¬ (usb.ins .ep2).uploadBusy then
        answerAck .ep2 (fun _ => 0) ++
          [clearZeroLenPacket]
      else
        []
  | .fido =>
      if usb.dataAvailable .fido ∧ ¬ (usb.ins .ep3).uploadBusy then
        fillBuffer .ep3 ::
          (answerAck .ep3 (fun _ => maxPacketSize) ++
            [clearAvailable .fido, clearFrameBufLength, stopFrame])
      else
        []
  | .ccid =>
      if usb.dataAvailable .ccid ∧ ¬ (usb.ins .ep3).uploadBusy then
        fillBuffer .ep3 ::
          (answerAck .ep3 (fun usb => usb.frameBufLength) ++
            [clearAvailable .ccid, clearFrameBufLength, stopFrame])
      else
        []
  | .debug =>
      if usb.dataAvailable .debug ∧ ¬ (usb.ins .ep4).uploadBusy then
        (if usb.frameBufLength = maxPacketSize then [fillBuffer .ep4]
          else [clearBuffer .ep4, fillBuffer .ep4]) ++
          (answerAck .ep4 (fun _ => maxPacketSize) ++
            [clearAvailable .debug, clearFrameBufLength, endOfFrame])
      else
        []
  | .ch552 =>
      if usb.dataAvailable .ch552 then
        if usb.frameBuf 0 < ch552CmdMax ∧ usb.frameBuf 0 = setEndpoints then
          [fun usb => { usb with ctsStopped := true },
            fun usb => { usb with resetKeep := usb.frameBuf 1 },
            fun usb => { usb with resetting := true }]
        else
          [clearAvailable .ch552, clearFrameBufLength,
            fun usb =>
              { usb with
                frameBuf :=
                  write usb.frameBuf 0 (List.replicate maxFrameSize 0) },
            endOfFrame]
      else
        []
  | .discard =>
      if usb.dataAvailable .discard then
        [clearAvailable .discard, endOfFrame, endDiscarding]
      else
        []
  | _ => []

end UartToUsb

end Definitions

section Assignments

variable {active : UInt8} {usb : UartToUsb} {stage : Stage}

theorem UartToUsb.assign_append (first second : List Assignment) :
    usb.assign (first ++ second) = (usb.assign first).assign second :=
  List.foldl_append

theorem UartToUsb.assign_cons
    (first : Assignment)
    (rest : List Assignment) :
    usb.assign (first :: rest) = (first usb).assign rest :=
  rfl

theorem UartToUsb.updateIn_updateIn
    (ep : Endpoint)
    (first second : InEndpoint → InEndpoint) :
    (usb.updateIn ep first).updateIn ep second =
      usb.updateIn ep fun endpoint => second (first endpoint) := by
  simp only [updateIn, Function.update_self, Function.update_idem]

/-- The endpoint is ready to send what is in its buffer. -/
theorem UartToUsb.assign_answerAck
    (ep : Endpoint)
    {tLen : UartToUsb → Nat}
    (bufferTx : Memory)
    (same :
      ∀ change, tLen (usb.updateIn ep change) = tLen usb) :
    (usb.updateIn ep fun endpoint =>
        { endpoint with bufferTx := bufferTx }).assign (answerAck ep tLen) =
      usb.arm ep bufferTx (tLen usb) := by
  simp only [answerAck, assign, List.foldl_cons, List.foldl_nil,
    updateIn_updateIn, same]
  rfl

/-- The assignments of a stage are the stage. -/
theorem UartToUsb.assign_assignments
    (notHeader : stage ≠ .header)
    (notCopy : stage ≠ .copy) :
    usb.assign (usb.assignments stage) = usb.perform active stage := by
  cases stage with
  | header => exact absurd rfl notHeader
  | copy => exact absurd rfl notCopy
  | top => rfl
  | ep2 => rfl
  | ep3 => rfl
  | ep4 => rfl
  | cdc =>
      rw [assignments, perform, uploadCdc]
      split
      · rw [assign_cons, assign_append, fillBuffer,
          assign_answerAck _ _ fun _ => rfl]
        rfl
      · rfl
  | zeroLenPacket =>
      rw [assignments, perform, sendZeroLenPacket]
      split
      · have filled :
            usb.updateIn .ep2 (fun endpoint =>
              { endpoint with bufferTx := (usb.ins .ep2).bufferTx }) =
              usb := by
          simp only [updateIn, Function.update_eq_self]
        have armed :=
          @assign_answerAck usb .ep2 (fun _ => 0) (usb.ins .ep2).bufferTx
            fun _ => rfl
        rw [filled] at armed
        rw [assign_append, armed]
        rfl
      · rfl
  | fido =>
      rw [assignments, perform, uploadFido]
      split
      · rw [assign_cons, assign_append, fillBuffer,
          assign_answerAck _ _ fun _ => rfl]
        rfl
      · rfl
  | ccid =>
      rw [assignments, perform, uploadCcid]
      split
      · rw [assign_cons, assign_append, fillBuffer,
          assign_answerAck _ _ fun _ => rfl]
        rfl
      · rfl
  | debug =>
      rw [assignments, perform, uploadDebug]
      split
      · by_cases whole : usb.frameBufLength = maxPacketSize
        · rw [if_pos whole, if_pos whole, assign_append, assign_append]
          change
            ((usb.fillBuffer .ep4).assign (answerAck .ep4 _)).assign _ = _
          rw [fillBuffer, assign_answerAck _ _ fun _ => rfl]
          rfl
        · rw [if_neg whole, if_neg whole, assign_append, assign_append]
          have filled :
              usb.assign [clearBuffer .ep4, fillBuffer .ep4] =
                usb.updateIn .ep4 fun endpoint =>
                  { endpoint with
                    bufferTx :=
                      write
                        (write (usb.ins .ep4).bufferTx 0
                          (List.replicate maxPacketSize 0)) 0
                        (read usb.frameBuf 0 usb.frameBufLength) } := by
            change (usb.clearBuffer .ep4).fillBuffer .ep4 = _
            rw [fillBuffer, clearBuffer, updateIn_updateIn]
            simp only [bufferWithFrame, updateIn, Function.update_self]
          rw [filled, assign_answerAck _ _ fun _ => rfl]
          rfl
      · rfl
  | ch552 =>
      rw [assignments, perform, handleCh552]
      split
      · split <;> rfl
      · rfl
  | discard =>
      rw [assignments, perform, endDiscard]
      split
      · change ((usb.clearAvailable .discard).endOfFrame).endDiscarding = _
        rw [endOfFrame_eq, endDiscarding]
        by_cases last : usb.frameRemainingBytes = 0
        · simp only [clearAvailable, last, if_true]
        · simp only [clearAvailable, last, if_false]
      · rfl

/-- An assignment that has nothing to do with a bus reset. -/
structure UartToUsb.Apart (assignment : Assignment) : Prop where
  busReset :
    ∀ usb, (assignment usb).busReset = assignment usb.busReset
  armed :
    ∀ usb ep,
      ((assignment usb).ins ep).uploadBusy = (usb.ins ep).uploadBusy ∧
        ((assignment usb).ins ep).acks = (usb.ins ep).acks

/-- All assignments of a list have nothing to do with a bus reset. -/
def UartToUsb.AllApart (assignments : List Assignment) : Prop :=
  ∀ assignment ∈ assignments, Apart assignment

/-- An assignment that leaves endpoints alone. -/
theorem UartToUsb.Apart.of_ins
    {assignment : Assignment}
    (ins : ∀ usb, (assignment usb).ins = usb.ins)
    (busReset : ∀ usb, (assignment usb).busReset = assignment usb.busReset) :
    Apart assignment where
  busReset := busReset
  armed usb ep := by
    rw [ins]
    exact ⟨rfl, rfl⟩

/-- An assignment to the buffer of an endpoint. -/
theorem UartToUsb.Apart.of_buffer
    (ep : Endpoint)
    (bufferTx : UartToUsb → Memory)
    (same : ∀ usb, bufferTx usb.busReset = bufferTx usb) :
    Apart fun usb =>
      usb.updateIn ep fun endpoint =>
        { endpoint with bufferTx := bufferTx usb } where
  busReset usb := by
    have ins :
        (fun other : Endpoint =>
          { Function.update usb.ins ep
              { usb.ins ep with bufferTx := bufferTx usb } other with
            uploadBusy := false
            acks := false }) =
          Function.update
            (fun other => { usb.ins other with
              uploadBusy := false
              acks := false }) ep
            { usb.ins ep with
              uploadBusy := false
              acks := false
              bufferTx := bufferTx usb } := by
      funext other
      by_cases isEp : other = ep
      · subst isEp
        simp only [Function.update_self]
      · simp only [Function.update_of_ne isEp]
    rw [same]
    exact congrArg (fun ins => { usb.busReset with ins := ins }) ins
  armed usb other := by
    by_cases isEp : other = ep
    · subst isEp
      simp only [updateIn, Function.update_self, and_self]
    · simp only [updateIn, Function.update_of_ne isEp, and_self]

theorem UartToUsb.busReset_assign
    {assignments : List Assignment}
    (apart : AllApart assignments) :
    (usb.assign assignments).busReset = usb.busReset.assign assignments := by
  induction assignments generalizing usb with
  | nil => rfl
  | cons assignment assignments inductionHypothesis =>
      rw [assign_cons, assign_cons,
        inductionHypothesis fun other member =>
          apart other (List.mem_cons_of_mem _ member),
        (apart assignment List.mem_cons_self).busReset]

theorem UartToUsb.armed_assign
    {assignments : List Assignment}
    (apart : AllApart assignments)
    (ep : Endpoint) :
    ((usb.assign assignments).ins ep).uploadBusy = (usb.ins ep).uploadBusy ∧
      ((usb.assign assignments).ins ep).acks = (usb.ins ep).acks := by
  induction assignments generalizing usb with
  | nil => exact ⟨rfl, rfl⟩
  | cons assignment assignments inductionHypothesis =>
      obtain ⟨busy, acks⟩ := (apart assignment List.mem_cons_self).armed usb ep
      obtain ⟨busy', acks'⟩ :=
        @inductionHypothesis (assignment usb) fun other member =>
          apart other (List.mem_cons_of_mem _ member)
      exact ⟨busy'.trans busy, acks'.trans acks⟩

/-- An assignment that is only made under a condition. -/
theorem UartToUsb.Apart.ite
    {condition : UartToUsb → Prop}
    [DecidablePred condition]
    {assignment : Assignment}
    (apart : Apart assignment)
    (same : ∀ usb, condition usb.busReset ↔ condition usb) :
    Apart fun usb => if condition usb then assignment usb else usb where
  busReset usb := by
    by_cases is : condition usb
    · rw [if_pos is, if_pos ((same usb).mpr is)]
      exact apart.busReset usb
    · rw [if_neg is, if_neg (mt (same usb).mp is)]
  armed usb ep := by
    by_cases is : condition usb
    · rw [if_pos is]
      exact apart.armed usb ep
    · rw [if_neg is]
      exact ⟨rfl, rfl⟩

theorem UartToUsb.apart_fillBuffer (ep : Endpoint) :
    Apart (fillBuffer ep) :=
  .of_buffer ep (fun usb => usb.bufferWithFrame ep) fun _ => rfl

theorem UartToUsb.apart_clearBuffer (ep : Endpoint) :
    Apart (clearBuffer ep) :=
  .of_buffer ep
    (fun usb =>
      write (usb.ins ep).bufferTx 0 (List.replicate maxPacketSize 0))
    fun _ => rfl

theorem UartToUsb.apart_markZeroLenPacket : Apart markZeroLenPacket :=
  .ite (.of_ins (fun _ => rfl) fun _ => rfl) fun _ => Iff.rfl

theorem UartToUsb.apart_clearZeroLenPacket : Apart clearZeroLenPacket :=
  .of_ins (fun _ => rfl) fun _ => rfl

theorem UartToUsb.apart_clearAvailable (sink : Sink) :
    Apart (clearAvailable sink) :=
  .of_ins (fun _ => rfl) fun _ => rfl

theorem UartToUsb.apart_clearFrameBufLength : Apart clearFrameBufLength :=
  .of_ins (fun _ => rfl) fun _ => rfl

theorem UartToUsb.apart_stopFrame : Apart stopFrame :=
  .of_ins (fun _ => rfl) fun _ => rfl

theorem UartToUsb.apart_endOfFrame : Apart endOfFrame :=
  .ite apart_stopFrame fun _ => Iff.rfl

theorem UartToUsb.apart_endDiscarding : Apart endDiscarding :=
  .ite (.of_ins (fun _ => rfl) fun _ => rfl) fun _ => Iff.rfl

/-- An endpoint is armed in between. -/
structure UartToUsb.Arms
    (usb : UartToUsb)
    (stage : Stage)
    (ep : Endpoint)
    (tLen : UartToUsb → Nat)
    (fill finish : List Assignment) : Prop where
  split : usb.assignments stage = fill ++ (answerAck ep tLen ++ finish)
  fill : AllApart fill
  finish : AllApart finish
  free : (usb.ins ep).uploadBusy = false
  /-- After a bus reset the stage would do the same. -/
  again : usb.busReset.assignments stage = usb.assignments stage

theorem UartToUsb.AllApart.nil : AllApart [] := fun _ member => by
  cases member

theorem UartToUsb.AllApart.cons
    {assignment : Assignment}
    {assignments : List Assignment}
    (first : Apart assignment)
    (rest : AllApart assignments) :
    AllApart (assignment :: assignments) := by
  intro other member
  rcases List.mem_cons.mp member with rfl | later
  · exact first
  · exact rest other later

/-- The stages that upload something under a condition. -/
theorem UartToUsb.cases_of_uploads
    {condition : UartToUsb → Prop}
    [DecidablePred condition]
    {ep : Endpoint}
    {tLen : UartToUsb → Nat}
    (fill : UartToUsb → List Assignment)
    {finish : List Assignment}
    (uploads :
      ∀ usb,
        usb.assignments stage =
          if condition usb then
            fill usb ++ (answerAck ep tLen ++ finish)
          else
            [])
    (free : condition usb → ¬ (usb.ins ep).uploadBusy = true)
    (again : condition usb → condition usb.busReset)
    (same : fill usb.busReset = fill usb)
    (apartFill : AllApart (fill usb))
    (apartFinish : AllApart finish) :
    AllApart (usb.assignments stage) ∨
      ∃ ep tLen fill finish, usb.Arms stage ep tLen fill finish := by
  by_cases is : condition usb
  · refine .inr ⟨ep, tLen, fill usb, finish, ?_⟩
    have before := (uploads usb).trans (if_pos is)
    have behind := (uploads usb.busReset).trans (if_pos (again is))
    rw [same] at behind
    exact
      { split := before
        fill := apartFill
        finish := apartFinish
        free := Bool.eq_false_of_not_eq_true (free is)
        again := behind.trans before.symm }
  · left
    rw [uploads, if_neg is]
    exact .nil

/-- A stage has nothing to do with a bus reset, or it arms an endpoint. -/
theorem UartToUsb.assignments_cases (usb : UartToUsb) (stage : Stage) :
    AllApart (usb.assignments stage) ∨
      ∃ ep tLen fill finish, usb.Arms stage ep tLen fill finish := by
  have released (sink : Sink) {last : Assignment} (apart : Apart last) :
      AllApart [clearAvailable sink, clearFrameBufLength, last] :=
    .cons (apart_clearAvailable sink)
      (.cons apart_clearFrameBufLength (.cons apart .nil))
  cases stage with
  | top => exact .inl .nil
  | ep2 => exact .inl .nil
  | ep3 => exact .inl .nil
  | ep4 => exact .inl .nil
  | header => exact .inl .nil
  | copy => exact .inl .nil
  | cdc =>
      exact
        cases_of_uploads (fun _ => [fillBuffer .ep2])
          (fun _ => rfl) And.right
          (fun is => ⟨is.1, Bool.false_ne_true⟩) rfl
          (.cons (apart_fillBuffer .ep2) .nil)
          (.cons apart_markZeroLenPacket (released .cdc apart_endOfFrame))
  | zeroLenPacket =>
      exact
        cases_of_uploads (fun _ => []) (fun _ => rfl) And.right
          (fun is => ⟨is.1, Bool.false_ne_true⟩) rfl .nil
          (.cons apart_clearZeroLenPacket .nil)
  | fido =>
      exact
        cases_of_uploads (fun _ => [fillBuffer .ep3])
          (fun _ => rfl) And.right
          (fun is => ⟨is.1, Bool.false_ne_true⟩) rfl
          (.cons (apart_fillBuffer .ep3) .nil) (released .fido apart_stopFrame)
  | ccid =>
      exact
        cases_of_uploads (fun _ => [fillBuffer .ep3])
          (fun _ => rfl) And.right
          (fun is => ⟨is.1, Bool.false_ne_true⟩) rfl
          (.cons (apart_fillBuffer .ep3) .nil) (released .ccid apart_stopFrame)
  | debug =>
      have apartFill :
          AllApart
            (if usb.frameBufLength = maxPacketSize then [fillBuffer .ep4]
              else [clearBuffer .ep4, fillBuffer .ep4]) := by
        have filled : AllApart [fillBuffer .ep4] :=
          .cons (apart_fillBuffer .ep4) .nil
        split
        · exact filled
        · exact .cons (apart_clearBuffer .ep4) filled
      exact
        cases_of_uploads
          (fun usb =>
            if usb.frameBufLength = maxPacketSize then [fillBuffer .ep4]
            else [clearBuffer .ep4, fillBuffer .ep4])
          (fun _ => rfl) And.right
          (fun is => ⟨is.1, Bool.false_ne_true⟩) rfl apartFill
          (released .debug apart_endOfFrame)
  | ch552 =>
      left
      rw [assignments]
      split
      · split
        · exact
            .cons (.of_ins (fun _ => rfl) fun _ => rfl)
              (.cons (.of_ins (fun _ => rfl) fun _ => rfl)
                (.cons (.of_ins (fun _ => rfl) fun _ => rfl) .nil))
        · exact
            .cons (apart_clearAvailable .ch552)
              (.cons apart_clearFrameBufLength
                (.cons (.of_ins (fun _ => rfl) fun _ => rfl)
                  (.cons apart_endOfFrame .nil)))
      · exact .nil
  | discard =>
      left
      rw [assignments]
      split
      · exact
          .cons (apart_clearAvailable .discard)
            (.cons apart_endOfFrame (.cons apart_endDiscarding .nil))
      · exact .nil

/-- Between the busy flag and the ACK an endpoint is half armed. -/
theorem UartToUsb.Arms.not_half
    {ep : Endpoint}
    {tLen : UartToUsb → Nat}
    {fill finish : List Assignment}
    (arms : usb.Arms stage ep tLen fill finish)
    (armed : ∀ ep, (usb.ins ep).uploadBusy = (usb.ins ep).acks)
    {begun : List Assignment}
    (isBegun :
      begun = (answerAck ep tLen).take 1 ∨
        begun = (answerAck ep tLen).take 2) :
    ¬ ((usb.assign (fill ++ begun)).ins ep).uploadBusy =
      ((usb.assign (fill ++ begun)).ins ep).acks := by
  have acks : ((usb.assign fill).ins ep).acks = false := by
    rw [(armed_assign arms.fill ep).2, ← armed, arms.free]
  have both :
      ((usb.assign (fill ++ begun)).ins ep).uploadBusy = true ∧
        ((usb.assign (fill ++ begun)).ins ep).acks =
          ((usb.assign fill).ins ep).acks := by
    rw [assign_append]
    rcases isBegun with rfl | rfl <;>
      simp only [answerAck, List.take_succ_cons, List.take_zero, assign,
        List.foldl_cons, List.foldl_nil, updateIn, Function.update_self,
        and_self]
  rw [both.1, both.2, acks]
  exact Bool.noConfusion

/--
Where no endpoint is half armed, a bus reset within a stage is like one behind
the stage or one before it.
-/
theorem UartToUsb.assign_busReset
    (armed : ∀ ep, (usb.ins ep).uploadBusy = (usb.ins ep).acks)
    (notHeader : stage ≠ .header)
    (notCopy : stage ≠ .copy)
    {before after : List Assignment}
    (split : usb.assignments stage = before ++ after)
    (whole :
      ∀ ep,
        ((usb.assign before).ins ep).uploadBusy =
          ((usb.assign before).ins ep).acks) :
    (usb.assign before).busReset.assign after =
        (usb.perform active stage).busReset ∨
      (usb.assign before).busReset.assign after =
        usb.busReset.perform active stage := by
  have performs := @assign_assignments active usb stage notHeader notCopy
  have performsAgain :=
    @assign_assignments active usb.busReset stage notHeader notCopy
  have behind (apart : AllApart after) :
      (usb.assign before).busReset.assign after =
        (usb.perform active stage).busReset := by
    rw [← busReset_assign apart, ← assign_append, ← split, performs]
  rcases usb.assignments_cases stage with apart | ⟨ep, tLen, fill, finish, arms⟩
  · refine .inl (behind fun assignment member => apart assignment ?_)
    rw [split]
    exact List.mem_append_right before member
  rw [arms.again, split] at performsAgain
  have first (apart : AllApart before) :
      (usb.assign before).busReset.assign after =
        usb.busReset.perform active stage := by
    rw [busReset_assign apart, ← assign_append, performsAgain]
  obtain ⟨rest, isFill, isAfter⟩ | ⟨begun, isBefore, isRest⟩ :=
    List.append_eq_append_iff.mp (split.symm.trans arms.split)
  · refine .inr (first fun assignment member => arms.fill assignment ?_)
    rw [isFill]
    exact List.mem_append_left rest member
  -- The endpoint is armed by the first three of these assignments.
  match begun, isBefore, isRest with
  | [], isBefore, _ =>
      rw [List.append_nil] at isBefore
      exact .inr (first (isBefore ▸ arms.fill))
  | [busy], isBefore, isRest =>
      obtain ⟨rfl, -⟩ := List.cons_eq_cons.mp isRest
      rw [isBefore] at whole
      exact absurd (whole ep) (arms.not_half armed (.inl rfl))
  | [busy, length], isBefore, isRest =>
      obtain ⟨rfl, isRest'⟩ := List.cons_eq_cons.mp isRest
      obtain ⟨rfl, -⟩ := List.cons_eq_cons.mp isRest'
      rw [isBefore] at whole
      exact absurd (whole ep) (arms.not_half armed (.inr rfl))
  | busy :: length :: ack :: done, isBefore, isRest =>
      obtain ⟨-, isRest⟩ := List.cons_eq_cons.mp isRest
      obtain ⟨-, isRest⟩ := List.cons_eq_cons.mp isRest
      obtain ⟨-, isRest⟩ := List.cons_eq_cons.mp isRest
      refine .inl (behind fun assignment member => arms.finish assignment ?_)
      have isFinish : finish = done ++ after := isRest
      rw [isFinish]
      exact List.mem_append_right done member

end Assignments

section Accesses

variable {active : UInt8} {begun usb : UartToUsb} {loop start : Loop}

/-- What the rest of a piece will have done at the next test. -/
def UartToUsb.pieceDone (usb : UartToUsb) : Point → UartToUsb
  | .copying piece copied =>
      (usb.copyRest piece.length copied).skip piece.sink piece.length
  | .copied piece => usb.skip piece.sink piece.length
  | .pieceTaken piece =>
      (usb.setDataAvailable piece.sink piece.length).ctsStart
  | .starting _ => usb.ctsStart
  | _ => usb

/-- A piece is taken of the state in which the stage has begun. -/
structure UartToUsb.TakesPiece
    (begun usb : UartToUsb)
    (point : Point)
    (piece : Piece) : Prop where
  takes : begun.pieceLength piece.sink = some piece.length
  distinct : piece.later.Nodup
  other : piece.sink ∉ piece.later
  done : usb.pieceDone point = begun.takePiece piece.sink

/-- What a stage has done at a point. -/
def UartToUsb.Inside (begun usb : UartToUsb) (stage : Stage) :
    Point → Prop
  | .entry => False
  | .counted => stage = .header ∧ usb = begun.countBytes
  | .modeKnown => stage = .header
  | .lengthKnown => stage = .header
  | .headerTaken => stage = .header
  | .testing sinks =>
      stage = .copy ∧ sinks.Nodup ∧
        (usb = begun ∨
          ∃ sink, begun.Wants sink ∧ sink ∉ sinks ∧
            usb = begun.takePiece sink)
  | .copying piece copied =>
      stage = .copy ∧ begun.TakesPiece usb (.copying piece copied) piece ∧
        piece.sink ≠ .discard ∧ copied ≤ piece.length
  | .copied piece => stage = .copy ∧ begun.TakesPiece usb (.copied piece) piece
  | .pieceTaken piece =>
      stage = .copy ∧ begun.TakesPiece usb (.pieceTaken piece) piece
  | .starting piece =>
      stage = .copy ∧ begun.TakesPiece usb (.starting piece) piece

/-- The stage of a loop has begun in some state. -/
structure Loop.Inside (start loop : Loop) : Prop where
  inside :
    start.chip.toUartToUsb.Inside loop.chip.toUartToUsb start.chip.stage
      loop.point
  stage : loop.chip.stage = start.chip.stage
  toSend : loop.toSend = start.toSend

/-- The test of a sink. -/
theorem UartToUsb.Inside.testing
    {stage : Stage}
    {sink : Sink}
    {sinks : List Sink}
    (inside : begun.Inside usb stage (.testing (sink :: sinks))) :
    match usb.pieceLength sink with
    | none => begun.Inside usb stage (.testing sinks)
    | some length =>
        let piece := { sink := sink, length := length, later := sinks }
        begun.Inside usb stage
          (if sink = .discard then .copied piece else .copying piece 0) := by
  obtain ⟨isCopy, distinct, state⟩ := inside
  obtain ⟨other, distinct'⟩ := List.nodup_cons.mp distinct
  cases takes : usb.pieceLength sink with
  | none =>
      refine ⟨isCopy, distinct', state.imp_right ?_⟩
      rintro ⟨taken, wants, notLater, isTaken⟩
      exact ⟨taken, wants, mt (List.mem_cons_of_mem sink) notLater, isTaken⟩
  | some length =>
      have isBegun : usb = begun := by
        refine state.resolve_right ?_
        rintro ⟨taken, wants, notLater, rfl⟩
        have isOther : sink ≠ taken := fun same =>
          notLater (same ▸ List.mem_cons_self)
        exact
          not_wants_takePiece wants isOther (bounds_of_pieceLength takes).1
      subst isBegun
      dsimp only
      by_cases isDiscard : sink = .discard
      · rw [if_pos isDiscard]
        refine ⟨isCopy, takes, distinct', other, ?_⟩
        rw [takePiece, takes]
        exact (if_pos isDiscard).symm
      · rw [if_neg isDiscard]
        refine
          ⟨isCopy, ⟨takes, distinct', other, ?_⟩, isDiscard, Nat.zero_le _⟩
        rw [takePiece, takes]
        exact (if_neg isDiscard).symm

/-- An access within the stage. -/
theorem Loop.Inside.main
    (inside : start.Inside loop)
    (stays : (loop.step active .main).point ≠ .entry) :
    start.Inside (loop.step active .main) := by
  obtain ⟨atPoint, stage, toSend⟩ := inside
  have sender := (@Loop.main_sender active loop).1.trans toSend
  change (loop.main active).point ≠ .entry at stays
  suffices next :
      start.chip.toUartToUsb.Inside (loop.main active).chip.toUartToUsb
          start.chip.stage (loop.main active).point ∧
        (loop.main active).chip.stage = loop.chip.stage from
    ⟨next.1, next.2.trans stage, sender⟩
  rw [Loop.main] at stays ⊢
  cases point : loop.point with
  | entry =>
      rw [point] at atPoint
      exact atPoint.elim
  | counted =>
      rw [point] at atPoint stays
      dsimp only at stays ⊢
      split at stays
      · rename_i arrived
        rw [if_pos arrived]
        exact ⟨atPoint.1, rfl⟩
      · exact absurd rfl stays
  | modeKnown =>
      rw [point] at atPoint stays
      dsimp only at stays ⊢
      split at stays
      · rename_i known
        rw [if_pos known]
        exact ⟨atPoint, rfl⟩
      · exact absurd rfl stays
  | lengthKnown =>
      rw [point] at atPoint
      exact ⟨atPoint, rfl⟩
  | headerTaken =>
      rw [point] at stays
      exact absurd rfl stays
  | testing sinks =>
      rw [point] at atPoint stays
      cases sinks with
      | nil => exact absurd rfl stays
      | cons sink sinks =>
          have next := atPoint.testing
          dsimp only
          split <;> rename_i takes <;> rw [takes] at next <;>
            exact ⟨next, rfl⟩
  | copying piece copied =>
      rw [point] at atPoint
      obtain ⟨isCopy, taking, notDiscard, bounded⟩ := atPoint
      have small := UartToUsb.le_bufSize_of_pieceLength taking.takes
      dsimp only
      split
      · rename_i more
        refine ⟨⟨isCopy, { taking with done := ?_ }, notDiscard, more⟩, rfl⟩
        refine Eq.trans ?_ taking.done
        exact
          congrArg (fun usb => UartToUsb.skip usb piece.sink piece.length)
            (UartToUsb.copyRest_copyByte small more)
      · rename_i none
        obtain rfl : copied = piece.length :=
          Nat.le_antisymm bounded (Nat.not_lt.mp none)
        refine ⟨⟨isCopy, { taking with done := ?_ }⟩, rfl⟩
        refine Eq.trans ?_ taking.done
        exact
          congrArg (fun usb => UartToUsb.skip usb piece.sink piece.length)
            (UartToUsb.copyRest_self small).symm
  | copied piece =>
      rw [point] at atPoint
      obtain ⟨isCopy, taking⟩ := atPoint
      exact ⟨⟨isCopy, { taking with done := taking.done }⟩, rfl⟩
  | pieceTaken piece =>
      rw [point] at atPoint
      obtain ⟨isCopy, taking⟩ := atPoint
      exact ⟨⟨isCopy, { taking with done := taking.done }⟩, rfl⟩
  | starting piece =>
      rw [point] at atPoint
      obtain ⟨isCopy, taking⟩ := atPoint
      refine ⟨⟨isCopy, taking.distinct, .inr ⟨piece.sink, ?_, taking.other, ?_⟩⟩, rfl⟩
      · exact (UartToUsb.bounds_of_pieceLength taking.takes).1
      · exact taking.done

/-- The first access of a stage that is taken apart. -/
theorem Loop.inside_enter
    (entry : start.point = .entry)
    (stays : (start.step active .main).point ≠ .entry) :
    start.Inside (start.step active .main) := by
  have sender := (@Loop.main_sender active start).1
  have enters : start.main active = start.enter active := by
    rw [Loop.main, entry]
  change (start.main active).point ≠ .entry at stays
  suffices next :
      start.chip.toUartToUsb.Inside (start.main active).chip.toUartToUsb
          start.chip.stage (start.main active).point ∧
        (start.main active).chip.stage = start.chip.stage from
    ⟨next.1, next.2, sender⟩
  rw [enters, Loop.enter] at stays ⊢
  split at stays
  · exact absurd entry stays
  rename_i running
  rw [if_neg running]
  split at stays
  · rename_i isHeader
    simp only [isHeader]
    exact ⟨⟨rfl, rfl⟩, isHeader⟩
  · rename_i isCopy
    simp only [isCopy]
    exact ⟨⟨rfl, by decide, .inl rfl⟩, isCopy⟩
  · exact absurd entry stays

theorem Loop.Within.inside
    (within : start.Within active loop)
    (entry : start.point = .entry) :
    start.Inside loop := by
  induction within with
  | first stays => exact inside_enter entry stays
  | next _ stays inductionHypothesis => exact inductionHypothesis.main stays

/-- Some of the sinks are tested. -/
theorem UartToUsb.foldl_takePiece_cases
    {sinks : List Sink}
    (distinct : sinks.Nodup) :
    sinks.foldl takePiece usb = usb ∨
      sinks.foldl takePiece usb = usb.perform active .copy := by
  by_cases some : ∃ sink, sink ∈ sinks ∧ usb.Wants sink
  · obtain ⟨sink, member, wants⟩ := some
    right
    rw [foldl_takePiece_of_wants wants distinct member,
      perform_copy_of_wants wants]
  · exact
      .inl (foldl_takePiece_of_none fun sink member wants =>
        some ⟨sink, member, wants⟩)

/-- How a stage goes on after a bus reset within it. -/
inductive UartToUsb.Survives
    (active : UInt8)
    (stage : Stage)
    (begun struck left : UartToUsb) : Prop where
  | header
      (isHeader : stage = .header)
      (counted : struck = begun.countBytes)
      (done : left = begun.busReset)
  | copy
      (isCopy : stage = .copy)
      (before : struck = begun ∨ struck = begun.perform active .copy)
      (behind :
        left = struck.busReset ∨
          left = struck.busReset.perform active .copy)

/--
Where no header and no piece is half taken, a bus reset within a stage is like
one before or behind it.
-/
theorem Loop.Within.busReset
    (within : start.Within active loop)
    (entry : start.point = .entry)
    (whole : loop.point.Whole)
    {left : Loop}
    (leaves : loop.busReset.Leaves active left) :
    left.toSend = start.toSend ∧
      left.chip.stage = start.chip.stage.next ∧
      UartToUsb.Survives active start.chip.stage start.chip.toUartToUsb
        loop.chip.toUartToUsb left.chip.toUartToUsb := by
  obtain ⟨atPoint, stage, toSend⟩ := within.inside entry
  have finishes {usb : UartToUsb}
      (finishes : loop.busReset.Finishes active usb) :
      left.toSend = start.toSend ∧
        left.chip.stage = start.chip.stage.next ∧
        left.chip.toUartToUsb = usb := by
    obtain ⟨left', leaves', chip⟩ := finishes
    obtain rfl := leaves.unique leaves'
    refine ⟨leaves.run.2.1.trans toSend, ?_, ?_⟩
    · rw [chip]
      exact congrArg Stage.next stage
    · rw [chip]
  cases point : loop.point with
  | counted =>
      rw [point] at atPoint
      have leavesNow :
          loop.busReset.main active =
            loop.busReset.leave loop.chip.toUartToUsb.busReset := by
        rw [Loop.main, Loop.busReset, point]
        exact if_neg fun arrived => absurd arrived.1 (Nat.not_succ_le_zero 1)
      obtain ⟨sender, next, done⟩ := finishes (.last leavesNow)
      refine ⟨sender, next, .header atPoint.1 atPoint.2 ?_⟩
      rw [done, atPoint.2]
      rfl
  | testing sinks =>
      rw [point] at atPoint
      obtain ⟨isCopy, distinct, state⟩ := atPoint
      have struckAt : loop.busReset.point = .testing sinks := point
      obtain ⟨sender, next, done⟩ := finishes (finishes_testing struckAt)
      refine ⟨sender, next, .copy isCopy (state.imp_right ?_) ?_⟩
      · rintro ⟨sink, wants, -, isTaken⟩
        rw [isTaken, UartToUsb.perform_copy_of_wants wants]
      · rw [done]
        exact UartToUsb.foldl_takePiece_cases distinct
  | entry =>
      rw [point] at atPoint
      exact atPoint.elim
  | _ =>
      rw [point] at whole
      exact whole.elim

end Accesses

end TKey.Ch552
