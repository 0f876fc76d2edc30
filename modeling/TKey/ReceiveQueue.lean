import TKey.FlowControl
import TKey.Lib.BoundedQueue

namespace TKey.Fpga.UartCore

/-!
# The receive path as a queue

The receive engine presents a byte until the FIFO has stored it and
acknowledges it; the CPU takes the bytes out.  Together they are a queue with
room for 511 bytes, for any line and any accesses of the CPU.
-/

section Definitions

/-- The state after some cycles. -/
def run (uart : UartCore) (cycles : List Ports) : UartCore :=
  cycles.foldl clock uart.reset

/-- The byte that the engine presents and the FIFO has not stored yet. -/
def waiting (uart : UartCore) : List (BitVec 8) :=
  if uart.rx.rxdSynReg && !uart.fifo.inAckReg then
    [uart.rx.rxdByteReg]
  else
    []

/-- The byte that the engine begins to present in the next cycle. -/
def presents (uart : UartCore) : List (BitVec 8) :=
  if uart.rx.erxCtrlReg == .stop && uart.rx.rxdStopBitReg then
    [uart.rx.rxdByteReg]
  else
    []

/-- The byte that the FIFO stores, and acknowledges in the next cycle. -/
def stores (uart : UartCore) : List (BitVec 8) :=
  uart.fifo.stored uart.rx.rxdSynReg uart.rx.rxdByteReg

/-- What a read of the status tells. -/
def statusNonEmpty (uart : UartCore) : Bool :=
  (uart.readData
    { rxd := true
      ch552Cts := false
      cs := true
      we := false
      address := addrRxStatus
      writeData := 0 }).getLsbD 0

/-- The byte that the CPU reads when the status says that there is one. -/
def reads (uart : UartCore) (ports : Ports) : List (BitVec 8) :=
  if fifoOutAck ports && uart.statusNonEmpty then
    [(uart.readData ports).extractLsb' 0 8]
  else
    []

/-- The bytes that the engine presents in a run. -/
def presented (uart : UartCore) (cycles : List Ports) : List (BitVec 8) :=
  Register.outputs clock (fun uart _ => uart.presents) uart.reset cycles

/-- The bytes that the FIFO acknowledges in a run. -/
def acknowledged (uart : UartCore) (cycles : List Ports) : List (BitVec 8) :=
  Register.outputs clock (fun uart _ => uart.stores) uart.reset cycles

/-- The bytes that the CPU reads in a run. -/
def received (uart : UartCore) (cycles : List Ports) : List (BitVec 8) :=
  Register.outputs clock reads uart.reset cycles

/-- What a cycle asks of the queue. -/
def queueCycle (uart : UartCore) (ports : Ports) :
    BoundedQueue.Cycle (BitVec 8) where
  offer := uart.waiting.head?
  request := fifoOutAck ports

/-- What the cycles of a run ask of the queue. -/
def queueCycles (uart : UartCore) (cycles : List Ports) :
    List (BoundedQueue.Cycle (BitVec 8)) :=
  Register.outputs clock (fun uart ports => [uart.queueCycle ports]) uart.reset
    cycles

end Definitions

section Steps

variable {uart : UartCore}

theorem statusNonEmpty_eq (uart : UartCore) :
    uart.statusNonEmpty = !uart.fifo.fifoEmpty := by
  change ((BitVec.ofBool !uart.fifo.fifoEmpty).setWidth 32).getLsbD 0 = _
  cases uart.fifo.fifoEmpty <;> rfl

/-- The CPU reads the byte that the FIFO gives away. -/
theorem reads_eq_given (uart : UartCore) (ports : Ports) :
    uart.reads ports = uart.fifo.given (fifoOutAck ports) := by
  rw [reads, statusNonEmpty_eq, UartFifo.given, UartFifo.gives]
  by_cases taken : (fifoOutAck ports && !uart.fifo.fifoEmpty) = true
  · rw [if_pos taken, if_pos taken]
    have access := (Bool.and_eq_true_iff.mp taken).1
    simp only [fifoOutAck, Bool.and_eq_true, beq_iff_eq] at access
    rcases access with ⟨⟨selected, isRead⟩, address⟩
    have other : addrRxData ≠ addrRxStatus := by decide
    rw [readData, if_pos (Bool.and_eq_true_iff.mpr ⟨selected, isRead⟩), address,
      if_neg other, if_pos rfl]
    apply congrArg (fun byte => [byte])
    apply BitVec.eq_of_getLsbD_eq
    intro bit inside
    simp [inside]
    omega
  · rw [if_neg taken, if_neg taken]

/-- The FIFO stores what waits, if there is room. -/
theorem stores_eq_accepted (uart : UartCore) (ports : Ports) :
    uart.stores =
      BoundedQueue.accepted 511 uart.fifo.contents (uart.queueCycle ports) := by
  have full : uart.fifo.fifoFull = !decide (uart.fifo.contents.length < 511) := by
    rw [UartFifo.length_contents, UartFifo.fifoFull, Bool.eq_iff_iff, beq_iff_eq,
      Bool.not_eq_true', decide_eq_false_iff_not, ← BitVec.toNat_inj]
    have bound := uart.fifo.byteCtrReg.isLt
    change _ = 511 ↔ _
    omega
  rw [stores, UartFifo.stored, UartFifo.takes, full, BoundedQueue.accepted,
    queueCycle, waiting]
  by_cases room : uart.fifo.contents.length < 511
  · rw [if_pos room, decide_eq_true room, Bool.not_not, Bool.and_true]
    cases uart.rx.rxdSynReg && !uart.fifo.inAckReg <;> rfl
  · rw [if_neg room, decide_eq_false room, Bool.not_false, Bool.not_true,
      Bool.and_false]
    rfl

/-- The FIFO gives away the byte that is served. -/
theorem reads_eq_served (uart : UartCore) (ports : Ports) :
    uart.reads ports =
      BoundedQueue.served uart.fifo.contents (uart.queueCycle ports) := by
  rw [reads_eq_given, BoundedQueue.served, queueCycle, UartFifo.given,
    UartFifo.gives]
  cases fifoOutAck ports with
  | false =>
      rfl
  | true =>
      cases empty : uart.fifo.fifoEmpty with
      | true =>
          have none : uart.fifo.contents = [] := by
            rw [← List.length_eq_zero_iff, UartFifo.length_contents]
            exact congrArg BitVec.toNat (eq_of_beq empty)
          rw [none]
          rfl
      | false =>
          rw [(UartFifo.contents_of_not_empty empty).1]
          rfl

/-- A cycle of the FIFO is a cycle of the queue. -/
theorem contents_clock
    (counted : uart.fifo.Counted)
    (ports : Ports) :
    (uart.clock ports).fifo.Counted ∧
      (uart.clock ports).fifo.contents =
        BoundedQueue.step 511 uart.fifo.contents (uart.queueCycle ports) := by
  rcases UartFifo.contents_clock counted uart.rx.rxdSynReg uart.rx.rxdByteReg
    (fifoOutAck ports) with ⟨counted', moved⟩
  refine ⟨counted', ?_⟩
  have queue := BoundedQueue.conserved 511 uart.fifo.contents
    (uart.queueCycle ports)
  rw [← stores_eq_accepted, ← reads_eq_served, reads_eq_given] at queue
  exact List.append_cancel_left (moved.symm.trans queue)

/-- The engine presents a byte in its state `syn`, and only there. -/
structure Handshake (uart : UartCore) : Prop where
  presenting : uart.rx.rxdSynReg = (uart.rx.erxCtrlReg == .syn)
  /-- Only a byte that is presented is acknowledged. -/
  acknowledging : uart.fifo.inAckReg = true → uart.rx.erxCtrlReg = .syn

/-- When the engine is in its state `syn`. -/
theorem erxCtrlReg_clock (rx : RxEngine) (rxd rxdAck : Bool) :
    ((rx.clock .default rxd rxdAck).erxCtrlReg == .syn) =
      ((rx.erxCtrlReg == .stop && rx.rxdStopBitReg) ||
        (rx.erxCtrlReg == .syn && !rxdAck)) := by
  unfold RxEngine.clock RxEngine.externalRxEngine
  cases state : rx.erxCtrlReg
  case stop =>
    cases rx.rxdStopBitReg <;> rfl
  case syn =>
    cases rxdAck <;> rfl
  all_goals
    simp only
    repeat' split
    all_goals rfl

theorem rxdSynReg_clock
    {rx : RxEngine}
    (presenting : rx.rxdSynReg = (rx.erxCtrlReg == .syn))
    (rxd rxdAck : Bool) :
    (rx.clock .default rxd rxdAck).rxdSynReg =
      ((rx.clock .default rxd rxdAck).erxCtrlReg == .syn) := by
  rw [erxCtrlReg_clock]
  unfold RxEngine.clock RxEngine.externalRxEngine
  rw [presenting]
  cases state : rx.erxCtrlReg
  case stop =>
    cases rx.rxdStopBitReg <;> rfl
  case syn =>
    cases rxdAck <;> rfl
  all_goals
    simp only
    repeat' split
    all_goals rfl

/-- A byte that is presented does not change. -/
theorem rxdByteReg_clock
    {rx : RxEngine}
    (held : rx.erxCtrlReg = .stop ∨ rx.erxCtrlReg = .syn)
    (rxd rxdAck : Bool) :
    (rx.clock .default rxd rxdAck).rxdByteReg = rx.rxdByteReg := by
  unfold RxEngine.clock RxEngine.externalRxEngine
  rcases held with state | state <;> rw [state]
  · cases rx.rxdStopBitReg <;> rfl
  · cases rxdAck <;> rfl

theorem Handshake.clock
    (handshake : uart.Handshake)
    (ports : Ports) :
    (uart.clock ports).Handshake := by
  rcases handshake with ⟨presenting, acknowledging⟩
  constructor
  · exact rxdSynReg_clock presenting _ _
  · intro takes
    have stored : uart.fifo.takes uart.rx.rxdSynReg = true := takes
    simp only [UartFifo.takes, presenting, Bool.and_eq_true,
      Bool.not_eq_true'] at stored
    have next : ((uart.clock ports).rx.erxCtrlReg == .syn) =
        ((uart.rx.erxCtrlReg == .stop && uart.rx.rxdStopBitReg) ||
          (uart.rx.erxCtrlReg == .syn && !uart.fifo.inAckReg)) :=
      erxCtrlReg_clock uart.rx ports.rxd uart.fifo.inAckReg
    rw [stored.1.1, stored.1.2, Bool.not_false, Bool.and_true,
      Bool.or_true] at next
    exact eq_of_beq next

/-- A byte that is presented waits until it is stored, and then no more. -/
theorem Handshake.waiting_clock
    (handshake : uart.Handshake)
    (ports : Ports) :
    uart.waiting ++ uart.presents =
      uart.stores ++ (uart.clock ports).waiting := by
  rcases handshake with ⟨presenting, acknowledging⟩
  have next := rxdSynReg_clock presenting ports.rxd uart.fifo.inAckReg
  rw [erxCtrlReg_clock] at next
  have stored : (uart.clock ports).fifo.inAckReg =
      uart.fifo.takes uart.rx.rxdSynReg := rfl
  have synced : (uart.clock ports).rx.rxdSynReg =
      ((uart.rx.erxCtrlReg == .stop && uart.rx.rxdStopBitReg) ||
        (uart.rx.erxCtrlReg == .syn && !uart.fifo.inAckReg)) := next
  have byte (held : uart.rx.erxCtrlReg = .stop ∨ uart.rx.erxCtrlReg = .syn) :
      (uart.clock ports).rx.rxdByteReg = uart.rx.rxdByteReg :=
    rxdByteReg_clock held ports.rxd uart.fifo.inAckReg
  rw [waiting, waiting, presents, stores, UartFifo.stored, stored, synced,
    UartFifo.takes, presenting]
  cases state : uart.rx.erxCtrlReg
  case stop =>
    rw [byte (Or.inl state)]
    cases uart.rx.rxdStopBitReg <;> rfl
  case syn =>
    rw [byte (Or.inr state)]
    cases uart.fifo.inAckReg <;> cases uart.fifo.fifoFull <;> rfl
  all_goals rfl

end Steps

section Runs

variable {uart : UartCore} {cycles : List Ports}

/-- What holds in every state of a run. -/
structure Queued (uart : UartCore) (cycles : List Ports) : Prop where
  handshake : (run uart cycles).Handshake
  counted : (run uart cycles).fifo.Counted
  queue :
    (run uart cycles).fifo.contents =
      BoundedQueue.run 511 (queueCycles uart cycles)
  accounted :
    presented uart cycles =
      acknowledged uart cycles ++ (run uart cycles).waiting
  accepts :
    acknowledged uart cycles =
      Register.outputs (BoundedQueue.step 511) (BoundedQueue.accepted 511) []
        (queueCycles uart cycles)
  serves :
    received uart cycles =
      Register.outputs (BoundedQueue.step 511) BoundedQueue.served []
        (queueCycles uart cycles)

theorem run_concat (uart : UartCore) (cycles : List Ports) (ports : Ports) :
    run uart (cycles ++ [ports]) = (run uart cycles).clock ports := by
  exact List.foldl_append

theorem queueCycles_concat
    (uart : UartCore)
    (cycles : List Ports)
    (ports : Ports) :
    queueCycles uart (cycles ++ [ports]) =
      queueCycles uart cycles ++ [(run uart cycles).queueCycle ports] := by
  exact Register.outputs_concat uart.reset cycles ports

theorem queued_run (uart : UartCore) (cycles : List Ports) :
    Queued uart cycles := by
  induction cycles using List.reverseRecOn with
  | nil =>
      refine ⟨⟨rfl, ?_⟩, UartFifo.counted_reset _, rfl, rfl, rfl, rfl⟩
      intro acknowledged
      cases acknowledged
  | append_singleton cycles ports inductionHypothesis =>
      rcases inductionHypothesis with
        ⟨handshake, counted, queue, accounted, accepts, serves⟩
      rcases contents_clock counted ports with ⟨counted', contents⟩
      constructor
      · rw [run_concat]
        exact handshake.clock ports
      · rw [run_concat]
        exact counted'
      · rw [run_concat, contents, queueCycles_concat, BoundedQueue.run,
          List.foldl_append, ← BoundedQueue.run, ← queue]
        rfl
      · rw [presented, acknowledged, Register.outputs_concat,
          Register.outputs_concat, ← presented, ← acknowledged, accounted,
          run_concat, List.append_assoc, List.append_assoc]
        exact congrArg _ (handshake.waiting_clock ports)
      · rw [acknowledged, Register.outputs_concat, ← acknowledged, accepts,
          queueCycles_concat, Register.outputs_concat, ← BoundedQueue.run,
          ← queue]
        exact congrArg _ (stores_eq_accepted _ ports)
      · rw [received, Register.outputs_concat, ← received, serves,
          queueCycles_concat, Register.outputs_concat, ← BoundedQueue.run,
          ← queue]
        exact congrArg _ (reads_eq_served _ ports)

/-- What was stored was read in the same order, or is still in the FIFO. -/
theorem Queued.ordered (queued : Queued uart cycles) :
    acknowledged uart cycles =
      received uart cycles ++ (run uart cycles).fifo.contents := by
  rw [queued.accepts, queued.serves, queued.queue]
  exact BoundedQueue.accepted_eq_served_append 511 [] _

/-- Without a data read the FIFO does not become empty. -/
theorem statusNonEmpty_append
    (nonEmpty : (run uart cycles).statusNonEmpty = true)
    (between : List Ports)
    (unread : ∀ ports ∈ between, fifoOutAck ports = false) :
    (run uart (cycles ++ between)).statusNonEmpty = true := by
  induction between using List.reverseRecOn with
  | nil =>
      rw [List.append_nil]
      exact nonEmpty
  | append_singleton between ports inductionHypothesis =>
      have before := inductionHypothesis
        fun other member => unread other (by simp [member])
      have counted := (queued_run uart (cycles ++ between)).counted
      rw [← List.append_assoc, run_concat]
      generalize run uart (cycles ++ between) = reached at *
      have contents := (contents_clock counted ports).2
      have quiet : (reached.queueCycle ports).request = false :=
        unread ports (by simp)
      have some (other : UartCore) :
          other.statusNonEmpty = true ↔ other.fifo.contents ≠ [] := by
        rw [statusNonEmpty_eq, Bool.not_eq_true', UartFifo.fifoEmpty, Ne,
          ← List.length_eq_zero_iff, UartFifo.length_contents,
          beq_eq_false_iff_ne, Ne, ← BitVec.toNat_inj]
        rfl
      rw [some] at before ⊢
      rw [contents, BoundedQueue.step, BoundedQueue.served, quiet]
      intro empty
      exact before (List.append_eq_nil_iff.mp empty).1

/--
The receive path is a queue for 511 bytes.  The counter always agrees with the
pointers and never wraps; every byte that the engine presents is presented until
it is stored, and stored once; and the CPU reads the stored bytes in order, each
once.  A status that says that there is a byte is true until the next data read.
-/
theorem receive_queue (uart : UartCore) (cycles : List Ports) :
    let reached := run uart cycles
    (reached.fifo.byteCtrReg =
        reached.fifo.inPtrReg - reached.fifo.outPtrReg ∧
      ∀ ports,
        (reached.clock ports).fifo.byteCtrReg.toNat +
            (reached.reads ports).length =
          reached.fifo.byteCtrReg.toNat + reached.stores.length) ∧
      (reached.fifo.contents =
          BoundedQueue.run 511 (queueCycles uart cycles) ∧
        reached.fifo.contents.length ≤ 511) ∧
      (presented uart cycles =
          acknowledged uart cycles ++ reached.waiting ∧
        ∀ ports,
          ((reached.clock ports).fifo.inAckReg = true ↔ reached.stores ≠ []) ∧
            (reached.stores = [] →
              reached.waiting <+: (reached.clock ports).waiting)) ∧
      acknowledged uart cycles =
          received uart cycles ++ reached.fifo.contents ∧
      ∀ between,
        reached.statusNonEmpty = true →
        (∀ ports ∈ between, fifoOutAck ports = false) →
        (run uart (cycles ++ between)).statusNonEmpty = true := by
  have queued := queued_run uart cycles
  dsimp only
  refine ⟨⟨?_, ?_⟩, ⟨queued.queue, ?_⟩, ⟨queued.accounted, ?_⟩, queued.ordered,
    ?_⟩
  · have counted := queued.counted
    rw [UartFifo.Counted] at counted
    bv_omega
  · intro ports
    have contents := (contents_clock queued.counted ports).2
    have moved := BoundedQueue.conserved 511 (run uart cycles).fifo.contents
      ((run uart cycles).queueCycle ports)
    rw [← stores_eq_accepted, ← reads_eq_served, ← contents] at moved
    have lengths := congrArg List.length moved
    simp only [List.length_append, UartFifo.length_contents] at lengths
    omega
  · rw [queued.queue]
    exact BoundedQueue.length_foldl_le (Nat.zero_le 511) _
  · intro ports
    have waiting := queued.handshake.waiting_clock ports
    constructor
    · change (run uart cycles).fifo.takes (run uart cycles).rx.rxdSynReg =
        true ↔ _
      rw [stores, UartFifo.stored]
      cases (run uart cycles).fifo.takes (run uart cycles).rx.rxdSynReg <;> simp
    · intro unstored
      rw [unstored, List.nil_append] at waiting
      rw [← waiting]
      exact List.prefix_append _ _
  · intro between nonEmpty unread
    exact statusNonEmpty_append nonEmpty between unread

end Runs

end TKey.Fpga.UartCore
