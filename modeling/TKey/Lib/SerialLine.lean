import Mathlib.Data.List.Basic

namespace SerialLine

/-!
# Asynchronous serial lines

A byte is sent as a frame: a low start bit, the eight bits of the byte, least
significant one first, and a high stop bit, all for the same time.  Between
frames the line is high.
-/

section Line

/-- What a line does in a clock cycle. -/
inductive Line where
  /-- The line was never idle. -/
  | low
  | idle
  /-- A frame, and how many cycles of it are ended. -/
  | frame (byte : BitVec 8) (age : Nat)

/-- The bits of a frame, the first one in the lowest place. -/
def frameBits (byte : BitVec 8) : BitVec 10 :=
  1#1 ++ byte ++ 0#1

namespace Line

/-- Whether the line is high. -/
def level (bitTime : Nat) : Line → Bool
  | .low => false
  | .idle => true
  | .frame byte age => (frameBits byte).getLsbD (age / bitTime)

/-- The byte whose frame starts in a cycle. -/
def started : Line → List (BitVec 8)
  | .frame byte 0 => [byte]
  | _ => []

/-- The byte whose frame is on the line. -/
def carried : Line → List (BitVec 8)
  | .frame byte _ => [byte]
  | _ => []

/-- How a line goes on. -/
inductive Next (bitTime : Nat) : Line → Line → Prop
  | low : Next bitTime .low .low
  | wake : Next bitTime .low .idle
  | idle : Next bitTime .idle .idle
  | start (byte : BitVec 8) : Next bitTime .idle (.frame byte 0)
  | within
      {byte : BitVec 8}
      {age : Nat}
      (more : age + 1 < 10 * bitTime) :
      Next bitTime (.frame byte age) (.frame byte (age + 1))
  | finish
      {byte : BitVec 8}
      {age : Nat}
      (last : age + 1 = 10 * bitTime) :
      Next bitTime (.frame byte age) .idle
  | again
      {byte : BitVec 8}
      {age : Nat}
      (last : age + 1 = 10 * bitTime)
      (byte' : BitVec 8) :
      Next bitTime (.frame byte age) (.frame byte' 0)

/-- A sender that starts a frame when there is none and it has a byte. -/
def send (bitTime : Nat) (offer : Option (BitVec 8)) : Line → Line
  | .low => .idle
  | .idle => offer.elim .idle (.frame · 0)
  | .frame byte age =>
      if age + 1 < 10 * bitTime then .frame byte (age + 1) else .idle

end Line

end Line

section Level

variable {bitTime : Nat} {byte : BitVec 8}

/-- The place in a frame that a cycle belongs to. -/
private theorem age_div
    {bit cycle : Nat}
    (inside : cycle < bitTime) :
    (bitTime * bit + cycle) / bitTime = bit := by
  rw [Nat.mul_add_div (Nat.zero_lt_of_lt inside),
    Nat.div_eq_of_lt inside, Nat.add_zero]

/-- The start bit is low. -/
theorem level_start
    {age : Nat}
    (inside : age < bitTime) :
    (Line.frame byte age).level bitTime = false := by
  rw [Line.level, Nat.div_eq_of_lt inside, frameBits, BitVec.getLsbD_append]
  rfl

/-- A data bit. -/
theorem level_data
    {bit cycle : Nat}
    (isData : bit < 8)
    (inside : cycle < bitTime) :
    (Line.frame byte (bitTime * (bit + 1) + cycle)).level bitTime =
      byte.getLsbD bit := by
  rw [Line.level, age_div inside, frameBits, BitVec.getLsbD_append,
    BitVec.getLsbD_append, if_neg (by omega), Nat.add_sub_cancel,
    if_pos isData]

/-- The stop bit is high. -/
theorem level_stop
    {cycle : Nat}
    (inside : cycle < bitTime) :
    (Line.frame byte (bitTime * 9 + cycle)).level bitTime = true := by
  rw [Line.level, age_div inside, frameBits, BitVec.getLsbD_append,
    BitVec.getLsbD_append]
  rfl

/-- How many frames have started at most, in this cycle and some before. -/
def Line.recent (bitTime cycles : Nat) : Line → Nat
  | .frame _ age => (cycles + 10 * bitTime - age) / (10 * bitTime)
  | _ => cycles / (10 * bitTime)

theorem Line.started_le_recent
    (line : Line)
    (positive : 0 < bitTime) :
    line.started.length ≤ line.recent bitTime 0 := by
  cases line with
  | low | idle => exact Nat.zero_le _
  | frame byte age =>
      cases age with
      | zero =>
          show 1 ≤ (0 + 10 * bitTime) / (10 * bitTime)
          exact Nat.div_pos (by omega) (by omega)
      | succ age => exact Nat.zero_le _

/-- The frames that have started, one cycle later. -/
theorem Line.Next.recent_le
    {line line' : Line}
    (next : Line.Next bitTime line line')
    (positive : 0 < bitTime)
    (cycles : Nat) :
    line.recent bitTime cycles + line'.started.length ≤
      line'.recent bitTime (cycles + 1) := by
  have later :
      cycles / (10 * bitTime) ≤ (cycles + 1) / (10 * bitTime) :=
    Nat.div_le_div_right (Nat.le_succ _)
  have again :
      (cycles + 1 + 10 * bitTime - 0) / (10 * bitTime) =
        (cycles + 1) / (10 * bitTime) + 1 :=
    Nat.add_div_right _ (by omega)
  have ended {age : Nat} (last : age + 1 = 10 * bitTime) :
      cycles + 10 * bitTime - age = cycles + 1 := by
    omega
  cases next with
  | low | wake | idle => exact later
  | start byte =>
      show cycles / (10 * bitTime) + 1 ≤ (_ + _ - 0) / _
      rw [again]
      exact Nat.add_le_add_right later 1
  | @within byte age more =>
      show (cycles + 10 * bitTime - age) / (10 * bitTime) + 0 ≤
        (cycles + 1 + 10 * bitTime - (age + 1)) / (10 * bitTime)
      apply Nat.le_of_eq
      rw [Nat.add_zero, Nat.add_right_comm, Nat.add_sub_add_right]
  | @finish byte age last =>
      show (cycles + 10 * bitTime - age) / _ + 0 ≤ (cycles + 1) / _
      rw [ended last]
      exact Nat.le_refl _
  | @again byte age last byte' =>
      show (cycles + 10 * bitTime - age) / _ + 1 ≤ (_ + _ - 0) / _
      apply Nat.le_of_eq
      rw [ended last, again]

end Level

/-- In the middle of a frame it goes on. -/
theorem Line.Next.eq_frame
    {bitTime : Nat}
    {byte : BitVec 8}
    {age : Nat}
    {line' : Line}
    (next : Line.Next bitTime (.frame byte age) line')
    (more : age + 1 < 10 * bitTime) :
    line' = .frame byte (age + 1) := by
  cases next with
  | within _ => rfl
  | finish last | again last _ => omega

/-- Two frames do not start at once. -/
theorem Line.Next.length_started_le
    {bitTime : Nat}
    {line line' : Line}
    (next : Line.Next bitTime line line') :
    (line.started ++ line'.started).length ≤ 1 := by
  have last {age : Nat} {byte : BitVec 8} (last : age + 1 = 10 * bitTime) :
      (Line.frame byte age).started = [] := by
    cases age with
    | zero => omega
    | succ age => rfl
  cases next with
  | low | wake | idle | start => exact Nat.le_of_ble_eq_true rfl
  | @within byte age _ => cases age <;> exact Nat.le_of_ble_eq_true rfl
  | finish ended | again ended _ =>
      rw [last ended]
      exact Nat.le_of_ble_eq_true rfl

section Send

variable {bitTime : Nat} {line : Line} {offer : Option (BitVec 8)}

/-- A line that a sender drives. -/
inductive Driven (bitTime : Nat) : Line → Prop
  | idle : Driven bitTime .idle
  | frame
      {byte : BitVec 8}
      {age : Nat}
      (inside : age < 10 * bitTime) :
      Driven bitTime (.frame byte age)

/-- A line that is driven stays so. -/
theorem Driven.next
    {line' : Line}
    (driven : Driven bitTime line)
    (positive : 0 < bitTime)
    (next : Line.Next bitTime line line') :
    Driven bitTime line' := by
  cases driven with
  | idle =>
      cases next with
      | idle => exact .idle
      | start byte => exact .frame (by omega)
  | frame inside =>
      cases next with
      | within more => exact .frame more
      | finish _ => exact .idle
      | again last byte => exact .frame (by omega)

theorem next_send (driven : Driven bitTime line) :
    Line.Next bitTime line (line.send bitTime offer) := by
  cases driven with
  | idle =>
      cases offer with
      | none => exact .idle
      | some byte => exact .start byte
  | frame inside =>
      rw [Line.send]
      split
      case isTrue more => exact .within more
      case isFalse last => exact .finish (by omega)

/-- No frame starts while there is one. -/
theorem started_send_frame
    {byte : BitVec 8}
    {age : Nat} :
    ((Line.frame byte age).send bitTime offer).started = [] := by
  rw [Line.send]
  split <;> rfl

/-- The line after some cycles with offers. -/
def sending (bitTime : Nat) (line : Line) (offers : List (Option (BitVec 8))) :
    Line :=
  offers.foldl (fun line offer => line.send bitTime offer) line

/-- The bytes whose frames start meanwhile. -/
def sent (bitTime : Nat) : Line → List (Option (BitVec 8)) → List (BitVec 8)
  | _, [] => []
  | line, offer :: offers =>
      (line.send bitTime offer).started ++
        sent bitTime (line.send bitTime offer) offers

theorem sent_append (offers later : List (Option (BitVec 8))) :
    sent bitTime line (offers ++ later) =
      sent bitTime line offers ++
        sent bitTime (sending bitTime line offers) later := by
  induction offers generalizing line with
  | nil => rfl
  | cons offer offers inductionHypothesis =>
      rw [List.cons_append, sent, sent, inductionHypothesis, List.append_assoc]
      rfl

theorem sending_append (offers later : List (Option (BitVec 8))) :
    sending bitTime line (offers ++ later) =
      sending bitTime (sending bitTime line offers) later :=
  List.foldl_append ..

/-- Without a byte nothing is sent. -/
theorem gap_idle (cycles : Nat) :
    sending bitTime .idle (List.replicate cycles none) = .idle ∧
      sent bitTime .idle (List.replicate cycles none) = [] := by
  induction cycles with
  | zero => exact ⟨rfl, rfl⟩
  | succ cycles inductionHypothesis => exact inductionHypothesis

/-- A frame goes on until its end. -/
theorem gap_frame
    {byte : BitVec 8}
    {age cycles : Nat}
    (whole : age + 1 + cycles = 10 * bitTime) :
    sending bitTime (.frame byte age) (List.replicate (cycles + 1) none) =
        .idle ∧
      sent bitTime (.frame byte age) (List.replicate (cycles + 1) none) =
        [] := by
  rw [List.replicate_succ, sending, List.foldl_cons, sent,
    started_send_frame, List.nil_append, Line.send]
  induction cycles generalizing age with
  | zero =>
      rw [if_neg (by omega)]
      exact ⟨rfl, rfl⟩
  | succ cycles inductionHypothesis =>
      rw [if_pos (by omega), List.replicate_succ, List.foldl_cons, sent,
        started_send_frame, List.nil_append, Line.send]
      exact inductionHypothesis (by omega)

/-- A byte that is offered after some cycles without an offer. -/
structure Offer where
  gap : Nat
  byte : BitVec 8

/-- Offers one after the other, each with the time for its frame. -/
def offers (bitTime : Nat) (all : List Offer) : List (Option (BitVec 8)) :=
  all.flatMap fun offer =>
    List.replicate offer.gap none ++
      some offer.byte :: List.replicate (10 * bitTime) none

/-- All bytes are sent. -/
theorem sent_offers
    (positive : 0 < bitTime)
    (all : List Offer) :
    sending bitTime .idle (offers bitTime all) = .idle ∧
      sent bitTime .idle (offers bitTime all) = all.map Offer.byte := by
  obtain ⟨cycles, whole⟩ : ∃ cycles, 10 * bitTime = cycles + 1 :=
    ⟨10 * bitTime - 1, by omega⟩
  induction all with
  | nil => exact ⟨rfl, rfl⟩
  | cons offer rest inductionHypothesis =>
      have gap := @gap_idle bitTime offer.gap
      have frame := @gap_frame bitTime offer.byte 0 cycles (by omega)
      rw [offers, List.flatMap_cons, List.append_assoc, sending_append,
        sent_append, gap.1, gap.2, List.nil_append, whole]
      show sending bitTime (.frame offer.byte 0) (_ ++ _) = _ ∧
        offer.byte :: sent bitTime (.frame offer.byte 0) (_ ++ _) = _
      rw [sending_append, sent_append, frame.1, frame.2, List.nil_append,
        ← whole]
      exact ⟨inductionHypothesis.1, congrArg (offer.byte :: ·)
        inductionHypothesis.2⟩

end Send

section ShiftRegister

/-- A shift register takes a bit, which comes in the highest place. -/
def shiftIn (register : BitVec 8) (bit : Bool) : BitVec 8 :=
  BitVec.ofBool bit ++ register.extractLsb' 1 7

/-- The upper places hold the first bits of a byte. -/
def Shifted (register byte : BitVec 8) (count : Nat) : Prop :=
  ∀ bit < count, register.getLsbD (8 - count + bit) = byte.getLsbD bit

variable {register byte : BitVec 8} {count : Nat}

theorem shifted_zero : Shifted register byte 0 :=
  fun _ none => absurd none (Nat.not_lt_zero _)

/-- One more bit of the byte. -/
theorem Shifted.shiftIn
    (shifted : Shifted register byte count)
    (more : count < 8) :
    Shifted (shiftIn register (byte.getLsbD count)) byte (count + 1) := by
  intro bit inside
  rw [SerialLine.shiftIn, BitVec.getLsbD_append, BitVec.getLsbD_extractLsb']
  split
  case isTrue old =>
    have before : bit < count := by omega
    rw [decide_eq_true old, Bool.true_and, ← shifted bit before]
    congr 1
    omega
  case isFalse new =>
    have last : bit = count := by omega
    rw [last, show 8 - (count + 1) + count - 7 = 0 by omega]
    exact BitVec.getLsbD_ofBool _ 0

/-- All eight bits are there. -/
theorem Shifted.eq (shifted : Shifted register byte 8) : register = byte := by
  apply BitVec.eq_of_getLsbD_eq
  intro bit inside
  have same := shifted bit inside
  rwa [Nat.sub_self, Nat.zero_add] at same

end ShiftRegister

end SerialLine
