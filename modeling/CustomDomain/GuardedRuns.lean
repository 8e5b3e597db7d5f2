import Mathlib.Init

/-!
# Runs of a partial step function

A machine whose next state is given by `perform`, where an action may be
impossible, and its runs under a condition on each step.
-/

namespace GuardedRuns

variable {σ α : Type} (perform : σ → α → Option σ) (condition : σ → α → σ → Prop)

/-- The states a run from `start` reaches when all its steps meet the
condition. -/
inductive Reaches (start : σ) : σ → Prop where
  | start : Reaches start start
  | step {state after : σ} {action : α} (before : Reaches start state)
      (performed : perform state action = some after) (met : condition state action after) :
      Reaches start after

/-- Run a list of actions, each of which has to meet the condition. -/
def follow [∀ state action after, Decidable (condition state action after)] (state : σ) :
    List α → Option σ
  | [] => some state
  | action :: actions =>
      match perform state action with
      | none => none
      | some after =>
          if condition state action after then follow after actions else none

namespace Reaches

variable {perform condition} {start state : σ}

/-- What holds at the start and is kept by every step holds in every state
reached. -/
theorem keeps (reaches : Reaches perform condition start state) (holds : σ → Prop)
    (first : holds start)
    (kept : ∀ {state after : σ} {action : α}, perform state action = some after →
      condition state action after → holds state → holds after) : holds state := by
  induction reaches with
  | start => exact first
  | step before performed met ih => exact kept performed met ih

theorem weaken {weaker : σ → α → σ → Prop} (reaches : Reaches perform condition start state)
    (implies : ∀ state action after, condition state action after →
      weaker state action after) : Reaches perform weaker start state := by
  induction reaches with
  | start => exact .start
  | step before performed met ih => exact ih.step performed (implies _ _ _ met)

theorem of_follow [∀ state action after, Decidable (condition state action after)]
    {actions : List α} {final : σ} (reached : Reaches perform condition start state)
    (followed : follow perform condition state actions = some final) :
    Reaches perform condition start final := by
  induction actions generalizing state with
  | nil =>
      cases followed
      exact reached
  | cons action actions ih =>
      simp only [follow] at followed
      split at followed
      next => cases followed
      next after performed =>
        split at followed
        next met => exact ih (reached.step performed met) followed
        next => cases followed

end Reaches

end GuardedRuns
