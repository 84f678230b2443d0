import NearMpc.Library.Outcome

/-!
# Sessions

A session is one party's side of an interactive protocol. It reads an inbox that grows while the
party runs, emits messages, and ends with a value or a failure; while the messages it needs are
missing it waits. What a session does is a function of its inbox: it is what the party comes to when
it is polled until it makes no more progress. A task that yields with messages left to read makes
its party later, which is not told apart here; every queue of the inbox has one reader, so up to
such a delay the order in which the tasks are polled changes neither what they read nor what they
return.

`tryJoin` and `tryJoinAll` run tasks side by side until one of them fails, `joinBoth` runs two tasks
to their ends.

`Ensures condition post` is the judgement proved about sessions: on an inbox that meets the
condition the session does not panic, and a value it returns meets the postcondition. There is one
rule for each way to build a session.

`Reaches` follows a session on a given inbox: the messages it has sent, and the session it goes on
as. `Emits` bounds what a session can send on any inbox. The two together say what a party that has
come to a certain point has sent under a header that is used nowhere later.
-/

set_option autoImplicit false

namespace NearMpc.Library

/-- What a party has sent, and how far it has come, on the messages received so far. -/
def Session (Inbox Message Failure Value : Type) : Type :=
  Inbox → List Message × Outcome Failure (Option Value)

namespace Session

variable {Inbox Message Failure Value Other Result : Type}

/-- Sequencing. A session that waits or has failed goes no further. -/
def andThen (session : Session Inbox Message Failure Value)
    (next : Value → Session Inbox Message Failure Result) :
    Session Inbox Message Failure Result := fun inbox ↦
  match session inbox with
  | (sent, .ok (some value)) => (sent ++ (next value inbox).1, (next value inbox).2)
  | (sent, .ok none) => (sent, .ok none)
  | (sent, .err failure) => (sent, .err failure)
  | (sent, .panicked) => (sent, .panicked)

instance : Monad (Session Inbox Message Failure) where
  pure := fun value _ ↦ ([], .ok (some value))
  bind := andThen

/-- A computation without messages. -/
def lift (outcome : Outcome Failure Value) : Session Inbox Message Failure Value :=
  fun _ ↦ ([], outcome >>= fun value ↦ .ok (some value))

instance : MonadLift (Outcome Failure) (Session Inbox Message Failure) where
  monadLift := lift

/-- Sends a message. -/
def emit (message : Message) : Session Inbox Message Failure Unit :=
  fun _ ↦ ([message], .ok (some ()))

/-- Reads from the inbox, or waits. -/
def read (reader : Inbox → Outcome Failure (Option Value)) :
    Session Inbox Message Failure Value := fun inbox ↦ ([], reader inbox)

/-- The outcome of two tasks that run side by side until one of them fails. -/
def firstFailure (first : Outcome Failure (Option Value))
    (second : Outcome Failure (Option Other)) : Outcome Failure (Option (Value × Other)) := do
  let first? ← first
  let second? ← second
  match first?, second? with
  | some value, some other => return some (value, other)
  | _, _ => return none

variable (first : Session Inbox Message Failure Value)
  (second : Session Inbox Message Failure Other)

/-- `try_join`: both tasks run until one of them fails. -/
def tryJoin : Session Inbox Message Failure (Value × Other) := fun inbox ↦
  ((first inbox).1 ++ (second inbox).1, firstFailure (first inbox).2 (second inbox).2)

/-- `try_join_all` -/
def tryJoinAll : List (Session Inbox Message Failure Value) →
    Session Inbox Message Failure (List Value)
  | [] => pure []
  | first :: rest => do
      let (value, values) ← tryJoin first (tryJoinAll rest)
      return value :: values

/-- The outcome of two tasks that both run to their ends: the first failure once both have ended. -/
def bothEnds : Outcome Failure (Option Value) → Outcome Failure (Option Other) →
    Outcome Failure (Option (Value × Other))
  | .panicked, _ => .panicked
  | _, .panicked => .panicked
  | .ok none, _ => .ok none
  | _, .ok none => .ok none
  | .err failure, _ => .err failure
  | _, .err failure => .err failure
  | .ok (some value), .ok (some other) => .ok (some (value, other))

/-- `join`, with the failures propagated once both tasks have ended. -/
def joinBoth : Session Inbox Message Failure (Value × Other) := fun inbox ↦
  ((first inbox).1 ++ (second inbox).1, bothEnds (first inbox).2 (second inbox).2)

/-! ### Rules -/

/-- On an inbox that meets the condition the session does not panic, and a value it returns meets
the postcondition. -/
def Ensures (condition : Inbox → Prop) (post : Value → Prop)
    (session : Session Inbox Message Failure Value) : Prop :=
  ∀ inbox, condition inbox → (session inbox).2 ≠ .panicked ∧
    ∀ value, (session inbox).2 = .ok (some value) → post value

variable {condition : Inbox → Prop} {post : Value → Prop}
  {session : Session Inbox Message Failure Value}

theorem bind_def {next : Value → Session Inbox Message Failure Result} :
    (session >>= next) = andThen session next := rfl

@[simp] theorem pure_apply (value : Value) (inbox : Inbox) :
    (Pure.pure value : Session Inbox Message Failure Value) inbox = ([], .ok (some value)) := rfl

@[simp] theorem monadLift_eq (outcome : Outcome Failure Value) :
    (liftM outcome : Session Inbox Message Failure Value) = lift outcome := rfl

theorem Ensures.pure {value} (hvalue : post value) :
    Ensures condition post (Pure.pure value : Session Inbox Message Failure Value) := by
  intro _ _
  simpa using hvalue

theorem Ensures.bind {next : Value → Session Inbox Message Failure Result} {last : Result → Prop}
    (hsession : session.Ensures condition post)
    (hnext : ∀ value, post value → (next value).Ensures condition last) :
    (session >>= next).Ensures condition last := by
  intro inbox hinbox
  obtain ⟨hpanic, hvalue⟩ := hsession inbox hinbox
  rw [bind_def, andThen]
  rcases houtcome : session inbox with ⟨sent, outcome⟩
  rw [houtcome] at hpanic hvalue
  cases outcome with
  | panicked => exact absurd rfl hpanic
  | err => simp
  | ok value? =>
    cases value? with
    | none => simp
    | some value => exact hnext value (hvalue value rfl) inbox hinbox

theorem Ensures.lift {outcome} (hpanic : outcome ≠ .panicked)
    (hvalue : ∀ value, outcome = .ok value → post value) :
    (Session.lift outcome : Session Inbox Message Failure Value).Ensures condition post := by
  intro _ _
  unfold Session.lift
  cases outcome with
  | panicked => exact absurd rfl hpanic
  | err => simp
  | ok value => simpa using hvalue value rfl

/-- A computation that cannot panic. -/
theorem Ensures.liftExcept (result : Except Failure Value) :
    (.lift (Outcome.ofExcept result) : Session Inbox Message Failure Value).Ensures condition
      fun value ↦ result = .ok value :=
  Ensures.lift (Outcome.ofExcept_ne_panicked result) fun _ hvalue ↦
    Outcome.ofExcept_eq_ok.mp hvalue

/-- A check that returns an error. -/
theorem Ensures.require (claim : Prop) [Decidable claim] (failure : Failure) :
    (.lift (Outcome.require claim failure) : Session Inbox Message Failure Unit).Ensures
      condition fun _ ↦ claim :=
  Ensures.lift (Outcome.require_ne_panicked claim failure) fun _ hok ↦
    Outcome.require_eq_ok.mp hok

theorem Ensures.emit (message : Message) :
    (.emit message : Session Inbox Message Failure Unit).Ensures condition fun _ ↦ True := by
  intro _ _
  simp [Session.emit]

theorem Ensures.read {reader : Inbox → Outcome Failure (Option Value)}
    (hreader : ∀ inbox, condition inbox → reader inbox ≠ .panicked ∧
      ∀ value, reader inbox = .ok (some value) → post value) :
    (.read reader : Session Inbox Message Failure Value).Ensures condition post :=
  hreader

variable {second : Session Inbox Message Failure Other} {secondPost : Other → Prop}

theorem Ensures.tryJoin (hfirst : session.Ensures condition post)
    (hsecond : second.Ensures condition secondPost) :
    (Session.tryJoin session second).Ensures condition
      fun values ↦ post values.1 ∧ secondPost values.2 := by
  intro inbox hinbox
  obtain ⟨hpanic, _⟩ := hfirst inbox hinbox
  obtain ⟨hpanickedSecond, _⟩ := hsecond inbox hinbox
  unfold Session.tryJoin firstFailure
  cases hfirstOutcome : (session inbox).2 with
  | panicked => exact absurd hfirstOutcome hpanic
  | err => simp
  | ok first? =>
    cases hsecondOutcome : (second inbox).2 with
    | panicked => exact absurd hsecondOutcome hpanickedSecond
    | err => simp
    | ok second? =>
      cases first? <;> cases second? <;> simp_all

theorem Ensures.tryJoinAll {sessions : List (Session Inbox Message Failure Value)}
    (hsessions : ∀ session ∈ sessions, session.Ensures condition post) :
    (Session.tryJoinAll sessions).Ensures condition
      fun values ↦ values.length = sessions.length ∧ ∀ value ∈ values, post value := by
  induction sessions with
  | nil => exact Ensures.pure ⟨rfl, by simp⟩
  | cons _ _ ih =>
    rw [List.forall_mem_cons] at hsessions
    refine (hsessions.1.tryJoin (ih hsessions.2)).bind fun values hvalues ↦ Ensures.pure ?_
    refine ⟨?_, List.forall_mem_cons.mpr ⟨hvalues.1, hvalues.2.2⟩⟩
    rw [List.length_cons, List.length_cons, hvalues.2.1]

theorem Ensures.joinBoth (hfirst : session.Ensures condition post)
    (hsecond : second.Ensures condition secondPost) :
    (Session.joinBoth session second).Ensures condition
      fun values ↦ post values.1 ∧ secondPost values.2 := by
  intro inbox hinbox
  obtain ⟨_, _⟩ := hfirst inbox hinbox
  obtain ⟨_, _⟩ := hsecond inbox hinbox
  unfold Session.joinBoth
  generalize (session inbox).2 = firstOutcome at *
  generalize (second inbox).2 = secondOutcome at *
  rcases firstOutcome with ⟨_ | _⟩ | _ | _ <;> rcases secondOutcome with ⟨_ | _⟩ | _ | _ <;>
    simp_all [bothEnds]

theorem Ensures.forEach (post : Value → Prop) {n}
    {round : Fin n → Session Inbox Message Failure Value}
    (hround : ∀ index, (round index).Ensures condition post) :
    (Library.forEach n round).Ensures condition fun values ↦ ∀ index, post (values index) := by
  induction n with
  | zero => exact Ensures.pure fun index ↦ index.elim0
  | succ _ ih =>
    refine (hround 0).bind fun first hfirst ↦ ?_
    refine (ih fun index ↦ hround index.succ).bind fun rest hrest ↦ Ensures.pure fun index ↦ ?_
    refine Fin.cases ?_ (fun rest ↦ ?_) index
    · exact hfirst
    · exact hrest rest

theorem Ensures.mono {weaker : Value → Prop} (hsession : session.Ensures condition post)
    (hweaker : ∀ value, post value → weaker value) : session.Ensures condition weaker := by
  intro inbox hinbox
  obtain ⟨hpanic, hvalue⟩ := hsession inbox hinbox
  exact ⟨hpanic, fun value hreturned ↦ hweaker value (hvalue value hreturned)⟩

/-! ### Progress on an inbox -/

/-- On this inbox the session sends the messages and goes on as `rest`. -/
def Reaches (session : Session Inbox Message Failure Value) (inbox : Inbox)
    (sent : List Message) (rest : Session Inbox Message Failure Value) : Prop :=
  session inbox = (sent ++ (rest inbox).1, (rest inbox).2)

section Progress

variable {inbox : Inbox} {sent later : List Message}
  {rest last : Session Inbox Message Failure Value}

theorem Reaches.refl (session : Session Inbox Message Failure Value) (inbox : Inbox) :
    session.Reaches inbox [] session := rfl

theorem Reaches.trans (hsession : session.Reaches inbox sent rest)
    (hrest : rest.Reaches inbox later last) : session.Reaches inbox (sent ++ later) last := by
  unfold Reaches at *
  rw [hsession, hrest, List.append_assoc]

variable {value : Value}

/-- A session that has returned goes on with what follows it. -/
theorem Reaches.bind {next : Value → Session Inbox Message Failure Result}
    (hsession : session.Reaches inbox sent (Pure.pure value)) :
    (session >>= next).Reaches inbox sent (next value) := by
  unfold Reaches at *
  rw [bind_def, andThen, hsession]
  simp

theorem Reaches.next {next : Value → Session Inbox Message Failure Result} {rest}
    (hsession : session.Reaches inbox sent (Pure.pure value))
    (hnext : (next value).Reaches inbox later rest) :
    (session >>= next).Reaches inbox (sent ++ later) rest :=
  hsession.bind.trans hnext

theorem Reaches.lift {outcome} (hvalue : outcome = .ok value) :
    (.lift outcome : Session Inbox Message Failure Value).Reaches inbox []
      (Pure.pure value) := by
  rw [hvalue]
  rfl

theorem Reaches.read {reader : Inbox → Outcome Failure (Option Value)}
    (hvalue : reader inbox = .ok (some value)) :
    (Session.read reader : Session Inbox Message Failure Value).Reaches inbox []
      (Pure.pure value) := by
  unfold Reaches Session.read
  rw [hvalue]
  rfl

theorem Reaches.returned (hsession : session.Reaches inbox sent (Pure.pure value)) :
    (session inbox).2 = .ok (some value) := by
  rw [hsession]
  rfl

end Progress

/-! ### What a session can send -/

/-- Every message that the session sends, on any inbox, is an allowed one. -/
def Emits (allowed : Message → Prop) (session : Session Inbox Message Failure Value) : Prop :=
  ∀ inbox, ∀ message ∈ (session inbox).1, allowed message

section Messages

variable {allowed : Message → Prop}

theorem Emits.mono {weaker : Message → Prop} (hsession : session.Emits allowed)
    (hweaker : ∀ message, allowed message → weaker message) : session.Emits weaker :=
  fun inbox message hmessage ↦ hweaker message (hsession inbox message hmessage)

theorem Emits.pure (value : Value) :
    (Pure.pure value : Session Inbox Message Failure Value).Emits allowed := by
  intro _ _ hmessage
  cases hmessage

theorem Emits.bind {next : Value → Session Inbox Message Failure Result}
    (hsession : session.Emits allowed) (hnext : ∀ value, (next value).Emits allowed) :
    (session >>= next).Emits allowed := by
  intro inbox message hmessage
  have hfirst := hsession inbox
  rw [bind_def, andThen] at hmessage
  rcases houtcome : session inbox with ⟨sent, outcome⟩
  rw [houtcome] at hmessage hfirst
  cases outcome with
  | panicked | err => exact hfirst message hmessage
  | ok value? =>
    cases value? with
    | none => exact hfirst message hmessage
    | some value =>
      rcases List.mem_append.mp hmessage with hsent | hlater
      · exact hfirst message hsent
      · exact hnext value inbox message hlater

theorem Emits.lift (outcome : Outcome Failure Value) :
    (.lift outcome : Session Inbox Message Failure Value).Emits allowed := by
  intro _ _ hmessage
  cases hmessage

theorem Emits.emit {message} (hallowed : allowed message) :
    (.emit message : Session Inbox Message Failure Unit).Emits allowed := by
  intro _ _ hsent
  rwa [List.mem_singleton.mp hsent]

theorem Emits.read (reader : Inbox → Outcome Failure (Option Value)) :
    (.read reader : Session Inbox Message Failure Value).Emits allowed := by
  intro _ _ hmessage
  cases hmessage

end Messages

end Session

end NearMpc.Library
