import Mathlib.Data.List.Induction
import TKey.Lib.NorFlash

namespace MirroredRecord

/-!
# Records in two copies

A record is kept in two copies, and an update rewrites the first, then the
second.  A copy is readable or not, and a reader takes the first readable one.
Updates can be interrupted; the interrupted copy is then unreadable until the
next update that reaches it.

The abstract part says exactly which sequences of updates always leave a
readable copy, and what is then read.  The concrete part stores the copies in
NOR flash and relates a power loss to the progress of the update it hits.
-/

variable {Value : Type}

/-- The two copies; an unreadable one is `none`. -/
structure Copies (Value : Type) where
  first : Option Value
  second : Option Value

/-- How far an update gets. -/
inductive Progress where
  /-- Nothing was changed. -/
  | untouched
  /-- The first copy was started and not finished. -/
  | tornFirst
  /-- The first copy was finished, the second not started. -/
  | between
  /-- The second copy was started and not finished. -/
  | tornSecond
  | complete
  deriving Repr, DecidableEq

namespace Copies

/-- What a reader gets. -/
def read (copies : Copies Value) : Option Value :=
  copies.first.or copies.second

/-- The copies after an update. -/
def update
    (value : Value) :
    Progress → Copies Value → Copies Value
  | .untouched, copies => copies
  | .tornFirst, copies => { copies with first := none }
  | .between, copies => { copies with first := some value }
  | .tornSecond, _ => { first := some value, second := none }
  | .complete, _ => { first := some value, second := some value }

/-- The copies after a sequence of updates. -/
def run
    (copies : Copies Value)
    (updates : List (Value × Progress)) : Copies Value :=
  updates.foldl (fun copies step => copies.update step.1 step.2) copies

/-- Both copies hold the same value. -/
def both (value : Value) : Copies Value where
  first := some value
  second := some value

@[simp] theorem read_update_tornFirst
    (value : Value)
    (copies : Copies Value) :
    (copies.update value .tornFirst).read = copies.second :=
  rfl

/-- Once the first copy is finished a reader gets the new value. -/
theorem read_update_of_finished
    {progress : Progress}
    (touched : progress ≠ .untouched)
    (finished : progress ≠ .tornFirst)
    (value : Value)
    (copies : Copies Value) :
    (copies.update value progress).read = some value := by
  cases progress with
  | untouched =>
      exact absurd rfl touched
  | tornFirst =>
      exact absurd rfl finished
  | between =>
      rfl
  | tornSecond =>
      rfl
  | complete =>
      rfl

theorem run_append_singleton
    (copies : Copies Value)
    (earlier : List (Value × Progress))
    (step : Value × Progress) :
    copies.run (earlier ++ [step]) =
      (copies.run earlier).update step.1 step.2 := by
  simp [run, List.foldl_append]

end Copies

/-- What a reader may get: the last completed value, or an interrupted one. -/
structure Ledger (Value : Type) where
  completed : Value
  interrupted : Option Value

namespace Ledger

def Allows (ledger : Ledger Value) (value : Value) : Prop :=
  value = ledger.completed ∨ ledger.interrupted = some value

/-- The ledger after an update. -/
def record
    (value : Value) :
    Progress → Ledger Value → Ledger Value
  | .untouched, ledger => ledger
  | .complete, _ => { completed := value, interrupted := none }
  | _, ledger => { ledger with interrupted := some value }

/-- The ledger after a sequence of updates. -/
def run
    (ledger : Ledger Value)
    (updates : List (Value × Progress)) : Ledger Value :=
  updates.foldl (fun ledger step => ledger.record step.1 step.2) ledger

/-- Nothing was interrupted yet. -/
def initial (value : Value) : Ledger Value where
  completed := value
  interrupted := none

theorem run_append_singleton
    (ledger : Ledger Value)
    (earlier : List (Value × Progress))
    (step : Value × Progress) :
    ledger.run (earlier ++ [step]) =
      (ledger.run earlier).record step.1 step.2 := by
  simp [run, List.foldl_append]

end Ledger

section Protocol

/-- A reader gets a value, and one that the ledger allows. -/
def ReadsRight (copies : Copies Value) (ledger : Ledger Value) : Prop :=
  ∃ value, copies.read = some value ∧ ledger.Allows value

/-- What the copies can hold, whatever was interrupted. -/
structure Consistent
    (copies : Copies Value)
    (ledger : Ledger Value) : Prop where
  first : ∀ value, copies.first = some value → ledger.Allows value
  second : ∀ value, copies.second = some value → value = ledger.completed

/-- Every update keeps the copies consistent with the ledger. -/
theorem Consistent.update
    {copies : Copies Value}
    {ledger : Ledger Value}
    (consistent : Consistent copies ledger)
    (value : Value)
    (progress : Progress) :
    Consistent (copies.update value progress)
      (ledger.record value progress) := by
  cases progress with
  | untouched =>
      exact consistent
  | tornFirst =>
      refine ⟨?_, consistent.second⟩
      intro other readable
      cases readable
  | between =>
      refine ⟨?_, consistent.second⟩
      intro other readable
      exact .inr readable
  | tornSecond =>
      refine ⟨?_, ?_⟩
      · intro other readable
        exact .inr readable
      · intro other readable
        cases readable
  | complete =>
      refine ⟨?_, ?_⟩
      · intro other readable
        exact .inl (Option.some.inj readable).symm
      · intro other readable
        exact (Option.some.inj readable).symm

theorem Consistent.run
    (value : Value)
    (updates : List (Value × Progress)) :
    Consistent ((Copies.both value).run updates)
      ((Ledger.initial value).run updates) := by
  induction updates using List.reverseRecOn with
  | nil =>
      refine ⟨?_, ?_⟩
      · intro other readable
        exact .inl (Option.some.inj readable).symm
      · intro other readable
        exact (Option.some.inj readable).symm
  | append_singleton earlier step inductionHypothesis =>
      rw [Copies.run_append_singleton, Ledger.run_append_singleton]
      exact inductionHypothesis.update step.1 step.2

/-- Consistent copies read right unless both are unreadable. -/
theorem Consistent.readsRight_iff
    {copies : Copies Value}
    {ledger : Ledger Value}
    (consistent : Consistent copies ledger) :
    ReadsRight copies ledger ↔ copies.read ≠ none := by
  constructor
  · rintro ⟨value, found, _⟩
    simp [found]
  · intro readable
    obtain ⟨value, found⟩ := Option.ne_none_iff_exists'.mp readable
    refine ⟨value, found, ?_⟩
    rcases Option.or_eq_some_iff.mp found with inFirst | ⟨_, inSecond⟩
    · exact consistent.first value inFirst
    · exact .inl (consistent.second value inSecond)

/-- An update tears the only readable copy. -/
def TearsLast (copies : Copies Value) (progress : Progress) : Prop :=
  progress = .tornFirst ∧ copies.second = none

/-- Both copies become unreadable only by tearing the last readable one. -/
theorem read_update_eq_none_iff
    {copies : Copies Value}
    (readable : copies.read ≠ none)
    (value : Value)
    (progress : Progress) :
    (copies.update value progress).read = none ↔
      TearsLast copies progress := by
  cases progress with
  | tornFirst =>
      simp [Copies.update, Copies.read, TearsLast]
  | untouched =>
      simp [Copies.update, readable, TearsLast]
  | between =>
      simp [Copies.update, Copies.read, TearsLast]
  | tornSecond =>
      simp [Copies.update, Copies.read, TearsLast]
  | complete =>
      simp [Copies.update, Copies.read, TearsLast]

/--
Starting from two equal copies, every read of a run succeeds and is right
exactly when no update tears the only readable copy.
-/
theorem reads_right_iff
    (value : Value)
    (updates : List (Value × Progress)) :
    (∀ earlier,
        earlier <+: updates →
        ReadsRight ((Copies.both value).run earlier)
          ((Ledger.initial value).run earlier)) ↔
      ∀ earlier step,
        earlier ++ [step] <+: updates →
        ¬ TearsLast ((Copies.both value).run earlier) step.2 := by
  constructor
  · intro right earlier step isPrefix tears
    have before : ((Copies.both value).run earlier).read ≠ none :=
      (Consistent.run value earlier).readsRight_iff.mp
        (right earlier ((List.prefix_append _ _).trans isPrefix))
    have after : ((Copies.both value).run (earlier ++ [step])).read ≠ none :=
      (Consistent.run value _).readsRight_iff.mp (right _ isPrefix)
    rw [Copies.run_append_singleton] at after
    exact after ((read_update_eq_none_iff before _ _).mpr tears)
  · intro safe earlier isPrefix
    apply (Consistent.run value earlier).readsRight_iff.mpr
    induction earlier using List.reverseRecOn with
    | nil =>
        simp [Copies.run, Copies.both, Copies.read]
    | append_singleton earlier step inductionHypothesis =>
        have before :=
          inductionHypothesis ((List.prefix_append _ _).trans isPrefix)
        rw [Copies.run_append_singleton]
        intro unreadable
        exact safe earlier step isPrefix
          ((read_update_eq_none_iff before _ _).mp unreadable)

end Protocol

section Flash

open ByteMemory NorFlash

/-- How the two copies of a record are kept in flash. -/
structure Mirror (Value : Type) where
  loadFirst : Memory → Option Value
  loadSecond : Memory → Option Value
  writeFirst : Value → List Command
  writeSecond : Value → List Command
  first_written :
    ∀ value memory,
      loadFirst (NorFlash.run (writeFirst value) memory) = some value
  second_written :
    ∀ value memory,
      loadSecond (NorFlash.run (writeSecond value) memory) = some value
  /-- Writing the first copy does not touch the second. -/
  second_kept :
    ∀ value (cut : Cut) memory,
      loadSecond (cut.run (writeFirst value) memory) = loadSecond memory
  /-- Writing the second copy does not touch the first. -/
  first_kept :
    ∀ value (cut : Cut) memory,
      loadFirst (cut.run (writeSecond value) memory) = loadFirst memory

namespace Mirror

variable (mirror : Mirror Value)

/-- The commands of an update. -/
def commands (value : Value) : List Command :=
  mirror.writeFirst value ++ mirror.writeSecond value

/-- The copies that a memory holds. -/
def copies (memory : Memory) : Copies Value where
  first := mirror.loadFirst memory
  second := mirror.loadSecond memory

/-- How far an update gets when a power loss hits it. -/
def progress (value : Value) (cut : Cut) : Progress :=
  if cut.done < (mirror.writeFirst value).length then
    if cut.done = 0 ∧ cut.torn = false then .untouched else .tornFirst
  else if
      cut.done - (mirror.writeFirst value).length <
        (mirror.writeSecond value).length then
    if cut.done = (mirror.writeFirst value).length ∧
        cut.torn = false then
      .between
    else
      .tornSecond
  else
    .complete

/-- A copy that was started and not finished is unreadable. -/
structure TornUnreadable
    (value : Value)
    (cut : Cut)
    (memory : Memory) : Prop where
  first :
    mirror.progress value cut = .tornFirst →
    mirror.loadFirst (cut.run (mirror.commands value) memory) = none
  second :
    mirror.progress value cut = .tornSecond →
    mirror.loadSecond (cut.run (mirror.commands value) memory) = none

variable {mirror}

theorem second_copies (memory : Memory) :
    (mirror.copies memory).second = mirror.loadSecond memory :=
  rfl

theorem not_begun_of_untouched
    {value : Value}
    {cut : Cut}
    (untouched : mirror.progress value cut = .untouched) :
    cut.done = 0 ∧ cut.torn = false := by
  unfold progress at untouched
  split_ifs at untouched with _ nothing
  exact nothing

theorem progress_eq_complete_iff {value : Value} {cut : Cut} :
    mirror.progress value cut = .complete ↔
      (mirror.commands value).length ≤ cut.done := by
  unfold progress commands
  split_ifs <;> simp <;> omega

theorem progress_eq_tornFirst_iff {value : Value} {cut : Cut} :
    mirror.progress value cut = .tornFirst ↔
      cut.done < (mirror.writeFirst value).length ∧
        ¬ (cut.done = 0 ∧ cut.torn = false) := by
  unfold progress
  split_ifs with inFirst nothing inSecond between
  · exact iff_of_false (by simp) fun torn => torn.2 nothing
  · exact iff_of_true rfl ⟨inFirst, nothing⟩
  all_goals exact iff_of_false (by simp) fun torn => inFirst torn.1

theorem progress_eq_tornSecond_iff {value : Value} {cut : Cut} :
    mirror.progress value cut = .tornSecond ↔
      (mirror.writeFirst value).length ≤ cut.done ∧
        cut.done - (mirror.writeFirst value).length <
          (mirror.writeSecond value).length ∧
        ¬ (cut.done = (mirror.writeFirst value).length ∧
          cut.torn = false) := by
  unfold progress
  split_ifs with inFirst nothing inSecond between
  · exact iff_of_false (by simp) fun torn => Nat.not_lt.mpr torn.1 inFirst
  · exact iff_of_false (by simp) fun torn => Nat.not_lt.mpr torn.1 inFirst
  · exact iff_of_false (by simp) fun torn => torn.2.2 between
  · exact iff_of_true rfl ⟨Nat.le_of_not_lt inFirst, inSecond, between⟩
  · exact iff_of_false (by simp) fun torn => inSecond torn.2.1

private theorem second_kept_run
    (value : Value)
    (memory : Memory) :
    mirror.loadSecond
        (NorFlash.run (mirror.writeFirst value) memory) =
      mirror.loadSecond memory := by
  have kept :=
    mirror.second_kept value
      { done := (mirror.writeFirst value).length
        torn := false
        noise := memory }
      memory
  rwa [Cut.run_of_finished (Nat.le_refl _)] at kept

private theorem first_kept_run
    (value : Value)
    (memory : Memory) :
    mirror.loadFirst
        (NorFlash.run (mirror.writeSecond value) memory) =
      mirror.loadFirst memory := by
  have kept :=
    mirror.first_kept value
      { done := (mirror.writeSecond value).length
        torn := false
        noise := memory }
      memory
  rwa [Cut.run_of_finished (Nat.le_refl _)] at kept

/-- A completed update leaves both copies with the value. -/
theorem copies_run (value : Value) (memory : Memory) :
    mirror.copies (NorFlash.run (mirror.commands value) memory) =
      (mirror.copies memory).update value .complete := by
  rw [commands, NorFlash.run_append, copies, first_kept_run,
    mirror.first_written, mirror.second_written]
  rfl

/-- A power loss has the effect of the progress that it allows. -/
theorem copies_cut
    {value : Value}
    {cut : Cut}
    {memory : Memory}
    (torn : mirror.TornUnreadable value cut memory) :
    mirror.copies (cut.run (mirror.commands value) memory) =
      (mirror.copies memory).update value (mirror.progress value cut) := by
  obtain ⟨firstTorn, secondTorn⟩ := torn
  simp only [commands, Cut.run_append] at firstTorn secondTorn ⊢
  by_cases inFirst : cut.done < (mirror.writeFirst value).length
  · simp only [if_pos inFirst] at firstTorn ⊢
    by_cases nothing : cut.done = 0 ∧ cut.torn = false
    · have untouched : mirror.progress value cut = .untouched := by
        rw [progress, if_pos inFirst, if_pos nothing]
      rw [untouched, Cut.run_of_not_started nothing.1 nothing.2]
      rfl
    · have isTorn : mirror.progress value cut = .tornFirst := by
        rw [progress, if_pos inFirst, if_neg nothing]
      rw [isTorn, copies, firstTorn isTorn, mirror.second_kept]
      rfl
  · simp only [if_neg inFirst] at secondTorn ⊢
    by_cases inSecond :
        cut.done - (mirror.writeFirst value).length <
          (mirror.writeSecond value).length
    · by_cases nothing :
          cut.done = (mirror.writeFirst value).length ∧ cut.torn = false
      · have isBetween : mirror.progress value cut = .between := by
          rw [progress, if_neg inFirst, if_pos inSecond, if_pos nothing]
        have notStarted :
            (cut.later (mirror.writeFirst value).length).done = 0 := by
          simp [Cut.later, nothing.1]
        rw [isBetween, Cut.run_of_not_started notStarted nothing.2,
          copies, mirror.first_written, second_kept_run]
        rfl
      · have isTorn : mirror.progress value cut = .tornSecond := by
          rw [progress, if_neg inFirst, if_pos inSecond, if_neg nothing]
        rw [isTorn, copies, secondTorn isTorn, mirror.first_kept,
          mirror.first_written]
        rfl
    · have finished : mirror.progress value cut = .complete := by
        rw [progress, if_neg inFirst, if_neg inSecond]
      have late :
          (mirror.writeSecond value).length ≤
            (cut.later (mirror.writeFirst value).length).done := by
        simpa [Cut.later] using inSecond
      rw [finished, Cut.run_of_finished late, ← NorFlash.run_append]
      exact copies_run value memory

end Mirror

end Flash

end MirroredRecord
