import Mathlib

/-!
# Runs of an event-driven machine

A machine takes one event at a time; `run` folds a list of events, oldest first, into a state.
`StepsMeet` says that every step of a run meets a condition on the state before the step and the
event.

`StepsMeet.invariant` is the induction rule for predicates of one state, `StepsMeet.chain` the one
for reflexive and transitive relations between an earlier and a later state. Both may use an
invariant that has already been established along the run. `run_invariant` and `run_related` are the
two rules for runs without conditions. `since_run` traces a fact that holds at the end of a run back
to the event that established it.
-/

set_option autoImplicit false

namespace NearMpc.Library

variable {State Event : Type} (step : State → Event → State) (start : State)

/-- The state after the given events, oldest first. -/
def run (events : List Event) : State :=
  events.foldl step start

@[simp] theorem run_nil : run step start [] = start := rfl

@[simp] theorem run_cons (event : Event) (rest : List Event) :
    run step start (event :: rest) = run step (step start event) rest := rfl

@[simp] theorem run_append (first second : List Event) :
    run step start (first ++ second) = run step (run step start first) second :=
  List.foldl_append

variable {step : State → Event → State} {start : State}

/-- A predicate that every step preserves holds after every run. -/
theorem run_invariant {inv : State → Prop} (hstart : inv start)
    (hstep : ∀ state event, inv state → inv (step state event)) (events : List Event) :
    inv (run step start events) := by
  induction events generalizing start with
  | nil => exact hstart
  | cons event _ ih => exact ih (hstep start event hstart)

/-- A reflexive and transitive relation that every step extends relates the first state of a run to
its last. -/
theorem run_related (related : State → State → Prop) (hrefl : ∀ state, related state state)
    (htrans : ∀ first middle last, related first middle → related middle last → related first last)
    (hstep : ∀ state event, related state (step state event)) (start : State)
    (events : List Event) : related start (run step start events) := by
  induction events generalizing start with
  | nil => exact hrefl start
  | cons event _ ih => exact htrans _ _ _ (hstep start event) (ih (step start event))

/-- Some event of the run met `origin` in the state before it, and since then every state has been
in the relation `since` to that one. -/
def Since (step : State → Event → State) (origin : State → Event → Prop)
    (since : State → State → Prop) (start : State) (events : List Event) : Prop :=
  ∃ earlier event later, events = earlier ++ event :: later ∧
    origin (run step start earlier) event ∧
    ∀ middle, middle <+: later →
      since (run step start earlier) (run step start (earlier ++ event :: middle))

/-- A fact that does not hold at first and that only an `origin` can establish, has held since one
did. -/
theorem since_run {origin : State → Event → Prop} (fact : State → Prop)
    (related : State → State → Prop) (hstart : ¬ fact start)
    (htrans : ∀ first middle last, related first middle → related middle last →
      related first last)
    (hstep : ∀ state event, fact (step state event) →
      related state (step state event) ∧ (fact state ∨ origin state event)) (events : List Event)
    (hfact : fact (run step start events)) :
    Since step origin (fun first last ↦ fact last ∧ related first last) start events := by
  induction events using List.reverseRecOn with
  | nil => exact absurd hfact hstart
  | append_singleton events event ih =>
    have hlast : run step start (events ++ [event]) = step (run step start events) event := by
      rw [run_append, run_cons, run_nil]
    rw [hlast] at hfact
    obtain ⟨hrelated, hbefore | horigin⟩ := hstep _ _ hfact
    · obtain ⟨earlier, first, later, rfl, hfirst, hsince⟩ := ih hbefore
      refine ⟨earlier, first, later ++ [event], by simp, hfirst, fun middle hmiddle ↦ ?_⟩
      rcases List.prefix_concat_iff.mp hmiddle with rfl | hprefix
      · have hsplit : earlier ++ first :: (later ++ [event]) =
            earlier ++ first :: later ++ [event] := by simp
        rw [hsplit, hlast]
        exact ⟨hfact, htrans _ _ _ (hsince later (List.prefix_refl later)).2 hrelated⟩
      · exact hsince middle hprefix
    · refine ⟨events, event, [], rfl, horigin, fun middle hmiddle ↦ ?_⟩
      obtain rfl : middle = [] := List.prefix_nil.mp hmiddle
      rw [hlast]
      exact ⟨hfact, hrelated⟩

theorem Since.imp {events} {origin weakerOrigin : State → Event → Prop}
    {since weaker : State → State → Prop} (hsince : Since step origin since start events)
    (horigin : ∀ earlier event, origin (run step start earlier) event →
      weakerOrigin (run step start earlier) event)
    (hweaker : ∀ first last, since first last → weaker first last) :
    Since step weakerOrigin weaker start events := by
  obtain ⟨earlier, event, later, hsplit, hmet, hlasts⟩ := hsince
  exact ⟨earlier, event, later, hsplit, horigin earlier event hmet,
    fun middle hmiddle ↦ hweaker _ _ (hlasts middle hmiddle)⟩

/-- Every step of the run over `events` meets `condition` in the state it is taken from. -/
def StepsMeet (step : State → Event → State) (condition : State → Event → Prop) :
    State → List Event → Prop
  | _, [] => True
  | state, event :: rest =>
      condition state event ∧ StepsMeet step condition (step state event) rest

instance StepsMeet.decidable (step : State → Event → State) (condition : State → Event → Prop)
    [∀ state event, Decidable (condition state event)] :
    ∀ (state : State) (events : List Event), Decidable (StepsMeet step condition state events)
  | _, [] => inferInstanceAs (Decidable True)
  | state, event :: rest =>
      have := StepsMeet.decidable step condition (step state event) rest
      inferInstanceAs (Decidable (_ ∧ _))

section

variable {step : State → Event → State} {condition : State → Event → Prop}
  {start : State} {events : List Event}

theorem stepsMeet_append (first second : List Event) :
    StepsMeet step condition start (first ++ second) ↔
      StepsMeet step condition start first ∧
        StepsMeet step condition (run step start first) second := by
  induction first generalizing start with
  | nil => simp [StepsMeet]
  | cons _ _ ih => simp only [List.cons_append, StepsMeet, run_cons, ih, and_assoc]

section

variable (hmeet : StepsMeet step condition start events) {inv : State → Prop} (hstart : inv start)
  (hstep : ∀ state event, condition state event → inv state → inv (step state event))
include hmeet hstart hstep

/-- A predicate that every allowed step preserves holds after every allowed run. -/
theorem StepsMeet.invariant : inv (run step start events) := by
  induction events generalizing start with
  | nil => exact hstart
  | cons event _ ih => exact ih hmeet.2 (hstep start event hmeet.1 hstart)

/-- A reflexive and transitive relation that every allowed step from an invariant state extends
relates the first state of an allowed run to its last. -/
theorem StepsMeet.chain (related : State → State → Prop) (hrefl : ∀ state, related state state)
    (htrans : ∀ first middle last, related first middle → related middle last →
      related first last)
    (hrelated : ∀ state event, condition state event → inv state →
      related state (step state event)) : related start (run step start events) := by
  induction events generalizing start with
  | nil => exact hrefl start
  | cons event _ ih =>
    exact htrans _ _ _ (hrelated start event hmeet.1 hstart)
      (ih hmeet.2 (hstep start event hmeet.1 hstart))

end

end

end NearMpc.Library
