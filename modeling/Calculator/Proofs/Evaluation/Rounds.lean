import Calculator.Proofs.Evaluation.Calls
import Mathlib.Logic.Function.Iterate

/-! Rounds: the counters of a loop are fixed before it starts, and the loop is the chain of what it
does in each round. -/

namespace Calculator

namespace Evaluation

variable {α : Type} {round : Nat → Evaluation α} {start : Machine}

/-- A number of rounds has been completed, one after another, with these results in order. -/
inductive Rounds (round : Nat → Evaluation α) (start : Machine) : Nat → List α → Machine → Prop
  | none : Rounds round start 0 [] start
  | next {count : Nat} {results : List α} {result : α} {reached left : Machine}
      (earlier : Rounds round start count results reached)
      (ran : round count reached = .ok result left) :
      Rounds round start (count + 1) (results ++ [result]) left

/-- The rounds have one course only. -/
theorem Rounds.unique {count : Nat} {results others : List α} {left other : Machine}
    (first : Rounds round start count results left)
    (second : Rounds round start count others other) : others = results ∧ other = left := by
  induction first generalizing others other with
  | none =>
    cases second
    exact ⟨rfl, rfl⟩
  | next _ ran ih =>
    cases second with
    | next earlier again =>
      -- The last round starts where the earlier ones end, which is one place by induction.
      obtain ⟨rfl, rfl⟩ := ih earlier
      rw [ran] at again
      cases again
      exact ⟨rfl, rfl⟩

/-- What each round keeps, whether it succeeds or fails, holds after any number of them. -/
theorem Rounds.keeps (holds : Machine → Prop) {count : Nat} {results : List α} {left : Machine}
    (rounds : Rounds round start count results left) (initially : holds start)
    (kept : ∀ index reached, holds reached → holds ((round index).after reached)) : holds left := by
  -- By induction on the rounds, each of which keeps the property.
  induction rounds with
  | none => exact initially
  | @next index _ _ reached _ _ ran ih =>
    have after := kept index reached ih
    rwa [after_of_ok ran] at after

/-- Of some number of rounds all are completed, or all before one that fails. -/
theorem rounds_or_fails (round : Nat → Evaluation α) (start : Machine) (count : Nat) :
    (∃ results left, Rounds round start count results left) ∨
      ∃ index < count, ∃ results reached error left,
        Rounds round start index results reached ∧ round index reached = .error error left := by
  induction count with
  | zero => exact .inl ⟨[], start, .none⟩
  | succ count ih =>
    obtain ⟨results, reached, rounds⟩ | ⟨index, earlier, fails⟩ := ih
    · -- The next round runs where the others ended.
      cases ran : round count reached with
      | ok result left => exact .inl ⟨results ++ [result], left, .next rounds ran⟩
      | error error left =>
        exact .inr ⟨count, Nat.lt_succ_self count, results, reached, error, left, rounds, ran⟩
    · exact .inr ⟨index, Nat.lt_succ_of_lt earlier, fails⟩

/-- Rounds that do the same wherever the rounds lead have the same course. -/
theorem Rounds.congr {other : Nat → Evaluation α} {count : Nat} {results : List α} {left : Machine}
    (rounds : Rounds round start count results left)
    (same : ∀ index < count, ∀ results reached, Rounds round start index results reached →
      other index reached = round index reached) : Rounds other start count results left := by
  -- By induction on the rounds: each starts where the ones before it have led.
  induction rounds with
  | none => exact .none
  | @next count _ _ reached _ earlier ran ih =>
    have before : Rounds other start count _ reached :=
      ih fun index within => same index (Nat.lt_succ_of_lt within)
    refine .next before ?_
    rw [same count (Nat.lt_succ_self count) _ reached earlier, ran]

end Evaluation

open Evaluation

namespace Progression

section Counters

variable {progression : Progression} {first : Float} {count index : Nat}

/-- The counters in turn: a step further each time, from the first one on. -/
def counterAt (progression : Progression) (first : Float) (index : Nat) : Float :=
  (fun counter => counter + progression.step)^[index] first

@[simp] theorem counterAt_zero : progression.counterAt first 0 = first := rfl

theorem counterAt_succ :
    progression.counterAt first (index + 1) =
      progression.counterAt first index + progression.step :=
  Function.iterate_succ_apply' _ _ _

/-- The counters from the second one on are those that start with it. -/
theorem counterAt_add_step :
    progression.counterAt (first + progression.step) index =
      progression.counterAt first (index + 1) :=
  (Function.iterate_succ_apply _ _ _).symm

/-- The counter has a round: it is before the bound, and the step changes it. -/
structure HasRound (progression : Progression) (counter : Float) : Prop where
  before : progression.isBefore counter = true
  moves : (counter + progression.step == counter) = false

instance (progression : Progression) (counter : Float) : Decidable (progression.HasRound counter) :=
  decidable_of_iff (progression.isBefore counter = true ∧ (counter + progression.step == counter) =
    false) ⟨fun holds => ⟨holds.1, holds.2⟩, fun has => ⟨has.before, has.moves⟩⟩

/-- So many counters in turn have a round, and then one has none. -/
structure Takes (progression : Progression) (first : Float) (count : Nat) : Prop where
  rounds : ∀ index < count, progression.HasRound (progression.counterAt first index)
  ends : ¬ progression.HasRound (progression.counterAt first count)

/-- A first counter with a round comes before the rounds of the next. -/
theorem Takes.succ (takes : progression.Takes (first + progression.step) count)
    (round : progression.HasRound first) : progression.Takes first (count + 1) where
  -- The first counter has the new round, and the others are those of the next one.
  rounds := by
    intro index within
    cases index with
    | zero => exact round
    | succ index =>
      rw [← counterAt_add_step]
      exact takes.rounds index (Nat.lt_of_succ_lt_succ within)
  ends := by
    rw [← counterAt_add_step]
    exact takes.ends

/-- Behind the first counter there is a round less. -/
theorem Takes.tail (takes : progression.Takes first (count + 1)) :
    progression.Takes (first + progression.step) count where
  -- The counters of the rest are those after the first.
  rounds := by
    intro index within
    rw [counterAt_add_step]
    exact takes.rounds (index + 1) (Nat.succ_lt_succ within)
  ends := by
    rw [counterAt_add_step]
    exact takes.ends

/-- Where the rounds end, the bound is reached or the step does not lead on. -/
theorem Takes.reached_or_stuck (takes : progression.Takes first count) :
    ¬ progression.isBefore (progression.counterAt first count) = true ∨
      (progression.counterAt first count + progression.step ==
        progression.counterAt first count) = true := by
  -- A counter without a round that is before its bound cannot be moved.
  by_cases before : progression.isBefore (progression.counterAt first count) = true
  · right
    by_contra moves
    exact takes.ends ⟨before, by simpa using moves⟩
  · exact .inl before

/-- Every loop has a number of rounds, which its first counter, its bound and its step decide. -/
theorem exists_takes (progression : Progression) (first : Float) :
    ∃ count, progression.Takes first count := by
  by_cases round : progression.HasRound first
  · -- A counter that moves leaves fewer doubles up to the bound.
    have closer := progression.remaining_lt first round.before (by simp [round.moves])
    obtain ⟨count, takes⟩ := exists_takes progression (first + progression.step)
    exact ⟨count + 1, takes.succ round⟩
  · exact ⟨0, by simp, round⟩
termination_by progression.remaining first

end Counters

section Runs

variable {α β : Type} {progression : Progression} {first : Float} {count index : Nat}
  {stuck : Float → EvalError} {visit : Float → Float → α → Evaluation α}
  {round : Nat → Evaluation β} {combine : α → β → α} {start reached left : Machine} {initial : α}
  {results : List β}

/-- A counter with a round is visited, and the loop goes on with the next. -/
theorem run_of_hasRound {counter : Float} (has : progression.HasRound counter) (value : α) :
    progression.run stuck visit counter value =
      visit counter (counter + progression.step) value >>=
        progression.run stuck visit (counter + progression.step) := by
  -- The counter is before the bound, and the step leads on from it.
  rw [run, if_pos has.before, if_neg (by simp [has.moves])]

/-- In each round a visit does what the round does and combines the result with the value so far. -/
def VisitsBy (progression : Progression) (first : Float) (round : Nat → Evaluation β)
    (combine : α → β → α) (visit : Float → Float → α → Evaluation α) : Prop :=
  ∀ index value, visit (progression.counterAt first index)
    (progression.counterAt first (index + 1)) value = do return combine value (← round index)

/-- After some rounds the loop goes on with the counter that is next and what was combined. -/
theorem run_of_rounds (takes : progression.Takes first count)
    (visits : progression.VisitsBy first round combine visit)
    (rounds : Rounds round start index results reached) (within : index ≤ count) :
    progression.run stuck visit first initial start =
      progression.run stuck visit (progression.counterAt first index)
        (results.foldl combine initial) reached := by
  -- The rounds are followed from the first one on, so that the loop is unfolded at its end.
  induction rounds with
  | none => rfl
  | @next index results result _ left _ ran ih =>
    rw [ih (Nat.le_of_succ_le within), run_of_hasRound (takes.rounds index within),
      ← counterAt_succ, visits index, bind_assoc, bind_eq_of_ok ran]
    -- The value of the round is combined last.
    rw [List.foldl_append]
    rfl

/-- A loop that reaches its bound after its rounds has combined their results. -/
theorem run_of_finished (takes : progression.Takes first count)
    (visits : progression.VisitsBy first round combine visit)
    (rounds : Rounds round start count results left)
    (finished : ¬ progression.isBefore (progression.counterAt first count) = true) :
    progression.run stuck visit first initial start = .ok (results.foldl combine initial) left := by
  -- After all rounds the counter has reached the bound, so nothing else is done.
  rw [run_of_rounds takes visits rounds (Nat.le_refl count), run, if_neg finished]
  rfl

/-- A loop that comes to a counter that its step does not change fails there. -/
theorem run_of_stuck (takes : progression.Takes first count)
    (visits : progression.VisitsBy first round combine visit)
    (rounds : Rounds round start count results left)
    (before : progression.isBefore (progression.counterAt first count) = true) :
    progression.run stuck visit first initial start =
      .error (stuck (progression.counterAt first count)) left := by
  -- It has no round although it is before the bound, so it is the step that fails to change it.
  have stays := takes.reached_or_stuck.resolve_left (not_not.mpr before)
  rw [run_of_rounds takes visits rounds (Nat.le_refl count), run, if_pos before, if_pos stays]
  rfl

/-- A loop fails with the first of its rounds that does. -/
theorem run_of_failed {error : EvalError} (takes : progression.Takes first count)
    (visits : progression.VisitsBy first round combine visit)
    (rounds : Rounds round start index results reached) (within : index < count)
    (failed : round index reached = .error error left) :
    progression.run stuck visit first initial start = .error error left := by
  -- The rounds before it succeed, and its own visit fails.
  rw [run_of_rounds takes visits rounds (Nat.le_of_lt within),
    run_of_hasRound (takes.rounds index within), ← counterAt_succ, visits index, bind_assoc,
    bind_eq_of_error failed]

end Runs

end Progression

end Calculator
