import Mathlib.Data.List.Induction
import TKey.Lib.Register
import TKey.SerialFrames

namespace TKey.Fpga

open SerialLine

/-!
# Transmit and receive engine on one line

The pin of the transmit engine is wired to that of the receive engine, and both
come out of the same reset.  What is transmitted is delivered.
-/

section Design

/-- Both engines of `uart_core`. -/
structure Loopback where
  tx : TxEngine
  rx : RxEngine

namespace Loopback

/-- `txd_syn` with `txd_data`, and `rxd_ack`. -/
structure Pins where
  txd : Option (BitVec 8)
  rxdAck : Bool

def reset : Loopback where
  tx := .reset
  rx := .reset

/-- A clock edge, at the default bit rate. -/
def clock (loop : Loopback) (pins : Pins) : Loopback where
  tx := loop.tx.clock .default pins.txd
  rx := loop.rx.clock .default loop.tx.txdReg pins.rxdAck

/-- The state after some cycles. -/
def run (cycles : List Pins) : Loopback :=
  cycles.foldl clock reset

/-- The bytes that the transmit engine takes. -/
def transmitted (cycles : List Pins) : List (BitVec 8) :=
  Register.outputs clock (fun loop pins => loop.tx.takes pins.txd) reset cycles

/-- The bytes that the receive engine delivers. -/
def delivered (cycles : List Pins) : List (BitVec 8) :=
  Register.outputs clock (fun loop pins => loop.rx.delivers pins.rxdAck) reset
    cycles

/--
A byte that the receive engine shows is acknowledged within 22 cycles.  It is
shown two cycles after the stop bit was sampled in its middle, so that the next
start bit may come 22 cycles later.
-/
def PromptAck (cycles : List Pins) : Prop :=
  ∀ before wait after,
    cycles = before ++ wait ++ after →
    wait.length = 22 →
    (run before).rx.rxdSynReg = true →
    ∃ pins ∈ wait, pins.rxdAck = true

end Loopback

end Design

section Run

namespace Loopback

variable {cycles : List Pins}

/-- The engine has shown a byte in the last cycles, without an `ack`. -/
def Waited (cycles : List Pins) (waited : Nat) : Prop :=
  waited = 0 ∨
    ∃ before wait,
      cycles = before ++ wait ∧
      wait.length = waited ∧
      (run before).rx.rxdSynReg = true ∧
      ∀ pins ∈ wait, pins.rxdAck = false

/-- Both engines are as far as the frame on the line. -/
structure Carried
    (cycles : List Pins)
    (line2 line1 line : Line)
    (waited : Nat)
    (undelivered : List (BitVec 8)) : Prop where
  drives : (run cycles).tx.Drives line
  receives : (run cycles).rx.Receives line2 line1 line waited undelivered
  ago : Waited cycles waited
  same : transmitted cycles = delivered cycles ++ undelivered

theorem carried_nil : Carried [] .low .low .idle 0 [] :=
  ⟨TxEngine.drives_reset, RxEngine.receives_reset (.inr rfl), .inl rfl, rfl⟩

theorem run_concat (cycles : List Pins) (pins : Pins) :
    run (cycles ++ [pins]) = (run cycles).clock pins :=
  List.foldl_concat ..

/-- Part of a run is prompt, too. -/
theorem PromptAck.of_concat
    {pins : Pins}
    (prompt : PromptAck (cycles ++ [pins])) :
    PromptAck cycles := by
  intro before wait after split
  exact prompt before wait (after ++ [pins])
    (by rw [split, List.append_assoc _ after])

/-- Another cycle of waiting. -/
theorem Waited.concat
    {waited : Nat}
    (ago : Waited cycles waited)
    (pins : Pins) :
    Waited (cycles ++ [pins])
      ((run cycles).rx.waits pins.rxdAck waited) := by
  cases syn : (run cycles).rx.rxdSynReg with
  | false =>
      rw [RxEngine.waits_of_not_syn syn]
      exact .inl rfl
  | true =>
      rw [RxEngine.waits, syn]
      cases ack : pins.rxdAck with
      | true => exact .inl rfl
      | false =>
          right
          rcases ago with rfl | ⟨before, wait, rfl, rfl, shown, noAck⟩
          · refine ⟨cycles, [pins], rfl, rfl, syn, ?_⟩
            intro pins' member
            rw [List.eq_of_mem_singleton member, ack]
          · refine ⟨before, wait ++ [pins], List.append_assoc .., ?_, shown, ?_⟩
            · rw [List.length_append]
              rfl
            · intro pins' member
              rcases List.mem_append.mp member with old | new
              · exact noAck pins' old
              · rw [List.eq_of_mem_singleton new, ack]

/-- When all bytes are acknowledged promptly, none has waited too long. -/
theorem Waited.lt
    {waited : Nat}
    (ago : Waited cycles waited)
    (atMost : waited ≤ 22)
    (prompt : PromptAck cycles) :
    waited < 22 := by
  rcases ago with rfl | ⟨before, wait, rfl, rfl, shown, noAck⟩
  · decide
  · refine Nat.lt_of_le_of_ne atMost fun whole => ?_
    obtain ⟨pins, member, ack⟩ :=
      prompt before wait [] (List.append_nil _).symm whole shown
    rw [noAck pins member] at ack
    cases ack

/-- A cycle of both engines is one of the line. -/
theorem Carried.concat
    {line2 line1 line : Line}
    {waited : Nat}
    {undelivered : List (BitVec 8)}
    {pins : Pins}
    (carried : Carried cycles line2 line1 line waited undelivered)
    (prompt : PromptAck (cycles ++ [pins])) :
    ∃ undelivered',
      Carried (cycles ++ [pins]) line1 line (line.send 48 pins.txd)
        ((run cycles).rx.waits pins.rxdAck waited) undelivered' := by
  obtain ⟨drives, receives, ago, same⟩ := carried
  have ago' := ago.concat pins
  have next : Line.Next 48 line (line.send 48 pins.txd) :=
    next_send drives.driven
  obtain ⟨undelivered', receives', goesOn⟩ :=
    receives.clock next (ago'.lt (RxEngine.waits_le receives.waited_lt) prompt)
  refine ⟨undelivered', ?_, ?_, ago', ?_⟩
  · rw [run_concat]
    exact drives.clock
  · rw [run_concat, clock, drives.level]
    exact receives'
  · have taken : transmitted (cycles ++ [pins]) =
        transmitted cycles ++ (run cycles).tx.takes pins.txd :=
      Register.outputs_concat ..
    have given : delivered (cycles ++ [pins]) =
        delivered cycles ++ (run cycles).rx.delivers pins.rxdAck :=
      Register.outputs_concat ..
    rw [taken, given, same, drives.takes_eq, List.append_assoc, goesOn,
      List.append_assoc]

/-- What holds after a whole run. -/
theorem carried_run (prompt : PromptAck cycles) :
    ∃ line2 line1 line waited undelivered,
      Carried cycles line2 line1 line waited undelivered := by
  induction cycles using List.reverseRecOn with
  | nil => exact ⟨_, _, _, _, _, carried_nil⟩
  | append_singleton cycles pins inductionHypothesis =>
      obtain ⟨line2, line1, line, waited, undelivered, carried⟩ :=
        inductionHypothesis prompt.of_concat
      obtain ⟨undelivered', carried'⟩ := carried.concat prompt
      exact ⟨_, _, _, _, undelivered', carried'⟩

/-- What is transmitted depends on the offers. -/
theorem transmitted_eq_sent (cycles : List Pins) :
    transmitted cycles = sent 48 .idle (cycles.map Pins.txd) ∧
      (run cycles).tx.Drives (sending 48 .idle (cycles.map Pins.txd)) := by
  suffices general :
      ∀ (loop : Loopback) (line : Line), loop.tx.Drives line →
        Register.outputs clock (fun loop pins => loop.tx.takes pins.txd) loop
            cycles =
          sent 48 line (cycles.map Pins.txd) ∧
        (cycles.foldl clock loop).tx.Drives
          (sending 48 line (cycles.map Pins.txd)) from
    general reset .idle TxEngine.drives_reset
  induction cycles with
  | nil => exact fun _ _ drives => ⟨rfl, drives⟩
  | cons pins cycles inductionHypothesis =>
      intro loop line drives
      obtain ⟨same, drives'⟩ :=
        inductionHypothesis (loop.clock pins) _ drives.clock
      rw [Register.outputs, List.map_cons, sent, drives.takes_eq, same]
      exact ⟨rfl, drives'⟩

/-- Once the transmit engine was ready for two cycles all is delivered. -/
theorem delivered_of_ready
    {last last' : Pins}
    (prompt : PromptAck (cycles ++ [last] ++ [last']))
    (ready : (run cycles).tx.txdReadyReg = true)
    (noByte : last.txd = none)
    (noByte' : last'.txd = none) :
    delivered (cycles ++ [last] ++ [last']) =
      transmitted (cycles ++ [last] ++ [last']) := by
  obtain ⟨line2, line1, line, waited, undelivered, carried⟩ :=
    carried_run prompt.of_concat.of_concat
  obtain rfl := carried.drives.ready_iff.mp ready
  obtain ⟨_, carried'⟩ := carried.concat prompt.of_concat
  rw [noByte] at carried'
  obtain ⟨rest, carried''⟩ := carried'.concat prompt
  rw [noByte'] at carried''
  rw [carried''.same, carried''.receives.eq_nil, List.append_nil]

end Loopback

end Run

section Carries

namespace Loopback

variable {cycles : List Pins}

/-- The transmit engine sends to the receive engine. -/
structure Carries (cycles : List Pins) : Prop where
  /-- All but the bytes that are on their way are delivered. -/
  ordered :
    ∃ flight,
      transmitted cycles = delivered cycles ++ flight ∧ flight.length ≤ 2
  /-- None is on its way when the transmit engine was ready for two cycles. -/
  complete :
    ∀ earlier last last',
      cycles = earlier ++ [last] ++ [last'] →
      (run earlier).tx.txdReadyReg = true →
      last.txd = none →
      last'.txd = none →
      delivered cycles = transmitted cycles
  /-- All bytes that are offered with any gaps are delivered. -/
  offered :
    ∀ all,
      cycles.map Pins.txd = offers 48 all ++ [none] ++ [none] →
      delivered cycles = all.map Offer.byte

/-- All that is transmitted is delivered, in order. -/
theorem loopback_carries (prompt : PromptAck cycles) : Carries cycles := by
  have complete :
      ∀ earlier last last',
        cycles = earlier ++ [last] ++ [last'] →
        (run earlier).tx.txdReadyReg = true →
        last.txd = none →
        last'.txd = none →
        delivered cycles = transmitted cycles := by
    rintro earlier last last' rfl
    exact delivered_of_ready prompt
  refine ⟨?_, complete, fun all whole => ?_⟩
  · obtain ⟨_, _, _, _, undelivered, carried⟩ := carried_run prompt
    exact ⟨undelivered, carried.same, carried.receives.length_le⟩
  · obtain ⟨idle, bytes⟩ := @sent_offers 48 (by decide) all
    obtain ⟨start, ends, split, isStart, isEnd⟩ :=
      List.map_eq_append_iff.mp whole
    obtain ⟨earlier, middle, rfl, isEarlier, isMiddle⟩ :=
      List.map_eq_append_iff.mp isStart
    obtain ⟨last, rfl, noByte⟩ := List.map_eq_singleton_iff.mp isMiddle
    obtain ⟨last', rfl, noByte'⟩ := List.map_eq_singleton_iff.mp isEnd
    have ready := (transmitted_eq_sent earlier).2.ready_iff.mpr
      (by rw [isEarlier, idle])
    rw [complete earlier last last' split ready noByte noByte',
      (transmitted_eq_sent cycles).1, whole, List.append_assoc, sent_append,
      idle, bytes]
    exact List.append_nil _

/-- Two bytes, the second one at once, with an `ack` whenever possible. -/
def twoBytes : List Pins :=
  (offers 48 [⟨3, 0xa5⟩, ⟨0, 0x5a⟩] ++ [none] ++ [none]).map (⟨·, true⟩)

theorem loopback_carries_sample : delivered twoBytes = [0xa5, 0x5a] := by
  have prompt : PromptAck twoBytes := by
    intro before wait after split whole _
    obtain ⟨pins, member⟩ := List.exists_mem_of_length_pos
      (show 0 < wait.length by omega)
    refine ⟨pins, member, ?_⟩
    have inRun : pins ∈ twoBytes := by
      rw [split]
      exact List.mem_append_left _ (List.mem_append_right _ member)
    obtain ⟨txd, -, rfl⟩ := List.mem_map.mp inRun
    rfl
  exact (loopback_carries prompt).offered [⟨3, 0xa5⟩, ⟨0, 0x5a⟩]
    (by rw [twoBytes, List.map_map]; exact List.map_id _)

end Loopback

end Carries

end TKey.Fpga
