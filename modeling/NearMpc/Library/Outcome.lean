import Mathlib

/-!
# Outcomes of fallible calls

A call of the modelled code returns a value, returns an error, or panics. The two failures are
kept apart: an error is a value its caller can inspect, a panic unwinds.

`Outcome` is the monad of such calls. `require` is the guard `if !p { return Err(e) }`, `guardPanic`
the guard of an `assert!`, `unwrap` the `Option::unwrap` of the source. The inversion lemmas
`bind_eq_ok`, `require_eq_ok`, `guardPanic_eq_ok` and `unwrap_eq_ok` peel a successful computation
apart one step at a time; `bind_eq_panicked` does the same for a computation that panics, and the
`_ne_panicked` lemmas name the steps that cannot.
-/

set_option autoImplicit false

namespace NearMpc.Library

/-- The result of a fallible call. -/
inductive Outcome (Failure Value : Type) where
  | ok (value : Value)
  | err (failure : Failure)
  | panicked
deriving DecidableEq, Repr

namespace Outcome

variable {Failure Value Result : Type}

/-- Sequencing: the first failure, of either kind, ends the computation. -/
def andThen (outcome : Outcome Failure Value) (next : Value → Outcome Failure Result) :
    Outcome Failure Result :=
  match outcome with
  | ok value => next value
  | err failure => err failure
  | panicked => panicked

instance : Monad (Outcome Failure) where
  pure := ok
  bind := andThen

/-- An early `return Err(failure)` unless the condition holds. -/
def require (condition : Prop) [Decidable condition] (failure : Failure) : Outcome Failure Unit :=
  if condition then ok () else err failure

/-- An `assert!` on the condition. -/
def guardPanic (condition : Prop) [Decidable condition] : Outcome Failure Unit :=
  if condition then ok () else panicked

variable (value? : Option Value)

/-- `Option::unwrap`. -/
def unwrap : Outcome Failure Value :=
  match value? with
  | some value => ok value
  | none => panicked

/-- `Option::ok_or`. -/
def okOr (failure : Failure) : Outcome Failure Value :=
  match value? with
  | some value => ok value
  | none => err failure

/-- A result of a call that cannot panic. -/
def ofExcept : Except Failure Value → Outcome Failure Value
  | .ok value => ok value
  | .error failure => err failure

/-- The same outcome with its error translated. -/
def mapErr {Other : Type} (translate : Failure → Other) :
    Outcome Failure Value → Outcome Other Value
  | ok value => ok value
  | err failure => err (translate failure)
  | panicked => panicked

/-- The call returned a value. -/
def isOk : Outcome Failure Value → Bool
  | ok _ => true
  | _ => false

@[simp] theorem pure_eq (value : Value) : (pure value : Outcome Failure Value) = ok value := rfl

@[simp] theorem ok_bind (value : Value) (next : Value → Outcome Failure Result) :
    (ok value >>= next) = next value := rfl

@[simp] theorem err_bind (failure : Failure) (next : Value → Outcome Failure Result) :
    (err failure >>= next) = err failure := rfl

@[simp] theorem panicked_bind (next : Value → Outcome Failure Result) :
    ((panicked : Outcome Failure Value) >>= next) = panicked := rfl

variable {outcome : Outcome Failure Value}

variable {next : Value → Outcome Failure Result}

/-- A sequence succeeds exactly when both of its parts do. -/
theorem bind_eq_ok {result} :
    (outcome >>= next) = ok result ↔ ∃ value, outcome = ok value ∧ next value = ok result := by
  cases outcome <;> simp

variable {condition : Prop} {failure : Failure}

theorem require_eq_ok [Decidable condition] {done} :
    require condition failure = ok done ↔ condition := by
  unfold require
  split_ifs with h <;> simp [h]

theorem require_pos [Decidable condition] (hcond : condition) :
    require condition failure = ok () := if_pos hcond

theorem guardPanic_eq_ok [Decidable condition] {done} :
    (guardPanic condition : Outcome Failure Unit) = ok done ↔ condition := by
  unfold guardPanic
  split_ifs with h <;> simp [h]

variable {value? : Option Value} {value : Value}

theorem unwrap_eq_ok :
    (unwrap value? : Outcome Failure Value) = ok value ↔ value? = some value := by
  cases value? <;> simp [unwrap]

theorem okOr_eq_ok : okOr value? failure = ok value ↔ value? = some value := by
  cases value? <;> simp [okOr]

/-- A sequence panics exactly when its first part does, or its second part after the first. -/
theorem bind_eq_panicked :
    (outcome >>= next) = panicked ↔
      outcome = panicked ∨ ∃ value, outcome = ok value ∧ next value = panicked := by
  cases outcome <;> simp

@[simp] theorem require_ne_panicked (condition : Prop) [Decidable condition] (failure : Failure) :
    require condition failure ≠ panicked := by
  unfold require
  split_ifs <;> simp

@[simp] theorem okOr_ne_panicked (value? : Option Value) (failure : Failure) :
    okOr value? failure ≠ panicked := by
  cases value? <;> simp [okOr]

variable {Other : Type} {translate : Failure → Other}

@[simp] theorem mapErr_eq_ok : mapErr translate outcome = ok value ↔ outcome = ok value := by
  cases outcome <;> simp [mapErr]

@[simp] theorem mapErr_eq_panicked : mapErr translate outcome = panicked ↔ outcome = panicked := by
  cases outcome <;> simp [mapErr]

variable (result : Except Failure Value)

@[simp] theorem ofExcept_ne_panicked : ofExcept result ≠ panicked := by
  cases result <;> simp [ofExcept]

@[simp] theorem ofExcept_eq_ok {result : Except Failure Value} :
    ofExcept result = ok value ↔ result = .ok value := by
  cases result <;> simp [ofExcept]

theorem unwrap_eq_panicked :
    (unwrap value? : Outcome Failure Value) = panicked ↔ value? = none := by
  cases value? <;> simp [unwrap]

instance : MonadLift (Except Failure) (Outcome Failure) where
  monadLift := ofExcept

@[simp] theorem monadLift_except : (liftM result : Outcome Failure Value) = ofExcept result := rfl

/-! ### Loops -/

/-- A loop over a list panics only where one of its rounds does. -/
theorem foldlM_ne_panicked {State Item : Type} {round : State → Item → Outcome Failure State}
    {items : List Item} (hround : ∀ state, ∀ item ∈ items, round state item ≠ panicked)
    (start : State) : items.foldlM round start ≠ panicked := by
  induction items generalizing start with
  | nil => simp
  | cons first _ ih =>
    rw [List.foldlM_cons, Ne, bind_eq_panicked, not_or]
    refine ⟨hround start first List.mem_cons_self, ?_⟩
    rintro ⟨middle, -, hpanic⟩
    exact ih (fun state item hitem ↦ hround state item (List.mem_cons_of_mem _ hitem)) middle hpanic

/-- A computation that succeeds with a value of which the property can be decided. -/
theorem exists_of_decide {outcome : Outcome Failure Value} (property : Value → Prop)
    [DecidablePred property]
    (hdecided : (do let value ← outcome; return decide (property value)) = ok true) :
    ∃ value, outcome = ok value ∧ property value := by
  obtain ⟨value, hok, hproperty⟩ := bind_eq_ok.mp hdecided
  exact ⟨value, hok, of_decide_eq_true (ok.inj hproperty)⟩

section Loop

variable {State Item : Type} {round : State → Item → Outcome Failure State}
  {invariant : State → Prop} {start : State}

/-- What every round keeps holds after the loop. -/
theorem foldlM_invariant
    (hround : ∀ {state next}, invariant state → ∀ {item}, round state item = ok next →
      invariant next)
    (hstart : invariant start) {items : List Item} {last : State}
    (hrun : items.foldlM round start = ok last) : invariant last := by
  induction items generalizing start with
  | nil => exact ok.inj hrun ▸ hstart
  | cons _ _ ih =>
    obtain ⟨_, hfirst, hrest⟩ := bind_eq_ok.mp hrun
    exact ih (hround hstart hfirst) hrest

/-- A loop comes to its end if no round fails where the invariant holds. -/
theorem foldlM_returns
    (hround : ∀ {state}, invariant state → ∀ item,
      ∃ next, round state item = ok next ∧ invariant next)
    (hstart : invariant start) (items : List Item) :
    ∃ last, items.foldlM round start = ok last ∧ invariant last := by
  induction items generalizing start with
  | nil => exact ⟨start, rfl, hstart⟩
  | cons first _ ih =>
    obtain ⟨_, hfirst, hmiddle⟩ := hround hstart first
    rw [List.foldlM_cons, hfirst, ok_bind]
    exact ih hmiddle

/-- One more round after a loop that has come to its end. -/
theorem foldlM_concat {items last} (hrun : items.foldlM round start = ok last) {item next}
    (hround : round last item = ok next) : (items ++ [item]).foldlM round start = ok next := by
  induction items generalizing start with
  | nil =>
    obtain rfl := ok.inj hrun
    rw [List.nil_append, List.foldlM_cons, hround]
    rfl
  | cons _ _ ih =>
    obtain ⟨_, hfirst, hrest⟩ := bind_eq_ok.mp hrun
    rw [List.cons_append, List.foldlM_cons, hfirst, ok_bind]
    exact ih hrest

end Loop

end Outcome

section ForEach

variable {M : Type → Type} [Monad M] {Value : Type}

/-- The loop `for i in 0..n` that collects one value for each index. -/
def forEach : (n : ℕ) → (Fin n → M Value) → M (Fin n → Value)
  | 0, _ => pure Fin.elim0
  | n + 1, round => do
      let first ← round 0
      let rest ← forEach n fun index ↦ round index.succ
      return Fin.cons first rest

end ForEach

theorem forEach_ne_panicked {Failure Value : Type} {n} {round : Fin n → Outcome Failure Value}
    (hround : ∀ index, round index ≠ .panicked) : forEach n round ≠ .panicked := by
  induction n with
  | zero => simp [forEach]
  | succ _ ih =>
    rw [forEach, Ne, Outcome.bind_eq_panicked, not_or]
    refine ⟨hround 0, ?_⟩
    rintro ⟨_, -, hpanic⟩
    rw [Outcome.bind_eq_panicked] at hpanic
    rcases hpanic with hpanic | ⟨rest, -, hpanic⟩
    · exact ih (fun index ↦ hround index.succ) hpanic
    · simp at hpanic

end NearMpc.Library
