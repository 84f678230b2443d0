import NearMpc.Library.Outcome

/-!
# Fallible calls that act on a state

`Effect` is the monad of calls that read and write a state and may fail. The state survives a
failure of either kind: what was written before it stays written.

`bind_eq_ok` and `bind_panics` peel a sequence of calls apart. `Returns` is a condition on what a
call returns, and depends on the last part of a sequence alone. `Within` says that a call relates
the state before it to the state after it, whatever its result; `Within.bind` is its rule for
sequences, over a transitive relation.
-/

set_option autoImplicit false

namespace NearMpc.Library

/-- A fallible call on a state. -/
def Effect (State Failure Value : Type) : Type := State → State × Outcome Failure Value

namespace Effect

variable {State Failure Value Result : Type}

/-- Sequencing: the first failure ends the computation in the state it happened in. -/
def andThen (effect : Effect State Failure Value) (next : Value → Effect State Failure Result) :
    Effect State Failure Result := fun state ↦
  match effect state with
  | (after, .ok value) => next value after
  | (after, .err failure) => (after, .err failure)
  | (after, .panicked) => (after, .panicked)

instance : Monad (Effect State Failure) where
  pure := fun value state ↦ (state, .ok value)
  bind := andThen

/-- A call that leaves the state alone. -/
def lift (outcome : Outcome Failure Value) : Effect State Failure Value :=
  fun state ↦ (state, outcome)

instance : MonadLift (Outcome Failure) (Effect State Failure) where
  monadLift := lift

/-- A call that only reads the state. -/
def read (query : State → Outcome Failure Value) : Effect State Failure Value :=
  fun state ↦ (state, query state)

/-- A write that cannot fail. -/
def modify (update : State → State) : Effect State Failure Unit :=
  fun state ↦ (update state, .ok ())

variable {effect : Effect State Failure Value} {next : Value → Effect State Failure Result}
  {state after : State}

theorem bind_def : (effect >>= next) = andThen effect next := rfl

@[simp] theorem pure_apply (value : Value) :
    (pure value : Effect State Failure Value) state = (state, .ok value) := rfl

variable (outcome : Outcome Failure Value)

@[simp] theorem lift_apply : lift outcome state = (state, outcome) := rfl

@[simp] theorem monadLift_eq : (liftM outcome : Effect State Failure Value) = lift outcome := rfl

@[simp] theorem modify_apply (update : State → State) :
    (modify update : Effect State Failure Unit) state = (update state, .ok ()) := rfl

theorem bind_of_ok {middle value} (heffect : effect state = (middle, .ok value)) :
    (effect >>= next) state = next value middle := by
  rw [bind_def, andThen, heffect]

theorem bind_of_err {middle failure} (heffect : effect state = (middle, .err failure)) :
    (effect >>= next) state = (middle, .err failure) := by
  rw [bind_def, andThen, heffect]

/-- A sequence succeeds exactly when both of its parts do. -/
theorem bind_eq_ok {result} :
    (effect >>= next) state = (after, .ok result) ↔
      ∃ middle value, effect state = (middle, .ok value) ∧
        next value middle = (after, .ok result) := by
  rw [bind_def, andThen]
  rcases effect state with ⟨middle, outcome⟩
  cases outcome <;> simp

@[simp] theorem read_apply (query : State → Outcome Failure Value) :
    read query state = (state, query state) := rfl

variable {query : State → Outcome Failure Value}

theorem read_bind_eq_ok {result} :
    (read query >>= next) state = (after, .ok result) ↔
      ∃ value, query state = .ok value ∧ next value state = (after, .ok result) := by
  rw [bind_eq_ok]
  constructor
  · rintro ⟨_, value, hread, hnext⟩
    obtain ⟨rfl, hvalue⟩ := Prod.mk.inj hread
    exact ⟨value, hvalue, hnext⟩
  · rintro ⟨value, hvalue, hnext⟩
    exact ⟨state, value, by rw [read_apply, hvalue], hnext⟩

theorem lift_bind_eq_ok {outcome result} :
    (lift outcome >>= next) state = (after, .ok result) ↔
      ∃ value, outcome = .ok value ∧ next value state = (after, .ok result) :=
  @read_bind_eq_ok State Failure Value Result next state after (fun _ ↦ outcome) result

/-- The call panics. -/
def Panics (effect : Effect State Failure Value) (state : State) : Prop :=
  (effect state).2 = .panicked

theorem bind_panics :
    (effect >>= next).Panics state ↔
      effect.Panics state ∨
        ∃ middle value, effect state = (middle, .ok value) ∧ (next value).Panics middle := by
  unfold Panics
  rw [bind_def, andThen]
  rcases effect state with ⟨middle, outcome⟩
  cases outcome <;> simp

/-- A call that leaves the state alone can be decided first. -/
theorem lift_bind_panics {outcome} :
    (lift outcome >>= next).Panics state ↔
      outcome = .panicked ∨ ∃ value, outcome = .ok value ∧ (next value).Panics state := by
  rw [bind_panics]
  simp [Panics]

@[simp] theorem pure_panics (value : Value) :
    ¬ (pure value : Effect State Failure Value).Panics state := by
  simp [Panics]

@[simp] theorem lift_panics : (lift outcome).Panics state ↔ outcome = .panicked := Iff.rfl

/-- A value that the call returns meets the condition. -/
def Returns (condition : Value → Prop) (effect : Effect State Failure Value) : Prop :=
  ∀ state after value, effect state = (after, .ok value) → condition value

section Returns

variable {condition : Result → Prop}

/-- What a sequence returns is what its last part returns. -/
theorem Returns.bind (hnext : ∀ value, (next value).Returns condition) :
    (effect >>= next).Returns condition := by
  intro _ after value hok
  obtain ⟨middle, first, -, hlast⟩ := bind_eq_ok.mp hok
  exact hnext first middle after value hlast

theorem Returns.pure {value} (hvalue : condition value) :
    (Pure.pure value : Effect State Failure Result).Returns condition := by
  intro _ _ _ hok
  rw [pure_apply, Prod.mk.injEq, Outcome.ok.injEq] at hok
  exact hok.2 ▸ hvalue

theorem Returns.lift {outcome} (houtcome : ∀ value, outcome = .ok value → condition value) :
    (Effect.lift outcome : Effect State Failure Result).Returns condition := by
  intro _ _ value hok
  rw [lift_apply, Prod.mk.injEq] at hok
  exact houtcome value hok.2

end Returns

/-- Whatever its result, the call relates the state before it to the state after it. -/
def Within (related : State → State → Prop) (effect : Effect State Failure Value) : Prop :=
  ∀ state, related state (effect state).1

section Within

variable {related : State → State → Prop}

/-- The second part only has to be considered where the first part leaves off. -/
theorem Within.bind_after
    (htrans : ∀ first middle last, related first middle → related middle last →
      related first last) (heffect : effect.Within related)
    (hnext : ∀ state middle value, effect state = (middle, .ok value) →
      related middle (next value middle).1) :
    (effect >>= next).Within related := by
  intro state
  have hfirst := heffect state
  rw [bind_def, andThen]
  rcases hresult : effect state with ⟨middle, outcome⟩
  rw [hresult] at hfirst
  cases outcome with
  | ok value => exact htrans _ _ _ hfirst (hnext state middle value hresult)
  | err => exact hfirst
  | panicked => exact hfirst

/-- The second part only has to be considered after a value that the first part returns. -/
theorem Within.bind_returns (condition : Value → Prop)
    (htrans : ∀ first middle last, related first middle → related middle last → related first last)
    (heffect : effect.Within related) (hreturns : effect.Returns condition)
    (hnext : ∀ value, condition value → (next value).Within related) :
    (effect >>= next).Within related :=
  Within.bind_after htrans heffect fun state middle value hok ↦
    hnext value (hreturns state middle value hok) middle

theorem Within.bind (htrans : ∀ first middle last, related first middle → related middle last →
      related first last) (heffect : effect.Within related)
    (hnext : ∀ value, (next value).Within related) : (effect >>= next).Within related :=
  Within.bind_returns (fun _ ↦ True) htrans heffect (fun _ _ _ _ ↦ trivial)
    fun value _ ↦ hnext value

section

variable (hrefl : ∀ state, related state state)
include hrefl

theorem Within.lift (outcome : Outcome Failure Value) :
    (Effect.lift outcome).Within related := fun state ↦ hrefl state

theorem Within.read (query : State → Outcome Failure Value) : (Effect.read query).Within related :=
  fun state ↦ hrefl state

/-- What follows a query has to be considered in the state that was queried. -/
theorem Within.read_bind
    (hnext : ∀ state value, query state = .ok value → related state (next value state).1) :
    (Effect.read query >>= next).Within related := by
  intro state
  rw [bind_def, andThen, read_apply]
  cases hquery : query state with
  | ok value => exact hnext state value hquery
  | err | panicked => exact hrefl state

end

theorem Within.modify {update : State → State} (hupdate : ∀ state, related state (update state)) :
    (Effect.modify update : Effect State Failure Unit).Within related := hupdate

end Within

end Effect

end NearMpc.Library
