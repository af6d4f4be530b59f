import Mathlib.Tactic.Common

namespace TensorPC.Transition

/-!
# Runs of a partial transition function

A machine is a function that takes a state and an event to the next state, and
is undefined where the event cannot happen.  A run lists the events taken from
a start state; `allowed` restricts the steps a statement speaks about.
-/

variable {σ ε : Type*}

/-- The states reached from `start` by allowed steps, with the events taken. -/
inductive Run
    (step : σ → ε → Option σ)
    (allowed : σ → ε → Prop)
    (start : σ) : List ε → σ → Prop
  | start : Run step allowed start [] start
  | next
      {events : List ε}
      {state after : σ}
      {event : ε}
      (earlier : Run step allowed start events state)
      (permitted : allowed state event)
      (stepped : step state event = some after) :
      Run step allowed start (events ++ [event]) after

/-- Execute a list of events, each of which must be allowed and possible. -/
def execute
    (step : σ → ε → Option σ)
    (allowed : σ → ε → Prop)
    [∀ state event, Decidable (allowed state event)] :
    σ → List ε → Option σ
  | state, [] => some state
  | state, event :: rest =>
      if allowed state event then
        (step state event).bind (execute step allowed · rest)
      else
        none

namespace Run

variable {step : σ → ε → Option σ} {allowed : σ → ε → Prop} {start state : σ} {events : List ε}

theorem invariant
    {holds : σ → Prop}
    (initially : holds start)
    (preserved :
      ∀ before event after,
        holds before →
        allowed before event →
        step before event = some after →
        holds after)
    (run : Run step allowed start events state) :
    holds state := by
  induction run with
  | start =>
      exact initially
  | next _ permitted stepped inductionHypothesis =>
      exact preserved _ _ _ inductionHypothesis permitted stepped

/-- Executing further events extends a run. -/
theorem append_execute
    [∀ state event, Decidable (allowed state event)]
    {later : List ε}
    {final : σ}
    (run : Run step allowed start events state)
    (executed : execute step allowed state later = some final) :
    Run step allowed start (events ++ later) final := by
  induction later generalizing events state with
  | nil =>
      simp only [execute, Option.some.injEq] at executed
      subst executed
      simpa using run
  | cons event rest inductionHypothesis =>
      simp only [execute] at executed
      split at executed
      · rename_i permitted
        obtain ⟨middle, stepped, executed⟩ := Option.bind_eq_some_iff.mp executed
        have extended :=
          inductionHypothesis (.next run permitted stepped) executed
        simpa using extended
      · simp at executed

theorem of_execute
    [∀ state event, Decidable (allowed state event)]
    {final : σ}
    (executed : execute step allowed start events = some final) :
    Run step allowed start events final := by
  simpa using append_execute .start executed

end Run

end TensorPC.Transition
