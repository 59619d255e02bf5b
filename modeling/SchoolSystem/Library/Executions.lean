import Mathlib.Order.Interval.Set.Defs
import SchoolSystem.Library.TransitionSystem

/-! Infinite runs, and what fair ones reach. -/

namespace TransitionSystem

variable {State Event : Type*} {step : State → Event → Option State}

variable (step) in
/-- An infinite run: each event leads from one of its states to the next. -/
def Execution (states : Nat → State) (events : Nat → Event) : Prop :=
  ∀ n, step (states n) (events n) = some (states (n + 1))

variable {states : Nat → State} {events : Nat → Event}

/-- What every guarded step preserves holds in all states, by induction on the time. -/
theorem Execution.invariant {invariant : State → Prop} {guard : State → Event → Prop}
    (execution : Execution step states events)
    (preserved
      : ∀ {state next event},
          invariant state → guard state event → step state event = some next → invariant next)
    (initial : invariant (states 0)) (met : ∀ n, guard (states n) (events n)) (n : Nat)
    : invariant (states n) := by
  induction n with
  | zero => exact initial
  | succ n ih => exact preserved ih (met n) (execution n)

end TransitionSystem
