import NearMpc.Library.Run
import NearMpc.Library.Session
import NearMpc.Threshold.Participants

/-!
# Channels of a protocol

What a running protocol uses to talk to the other participants: headers that name a channel and a
waitpoint, a queue of received messages for each header, shared and private channels, and the
gathering of one message from each of the others. Follows `protocol/internal.rs`,
`protocol/helpers.rs` and the maps of `participants.rs`.

A payload stands for the bytes of a message by what they decode to. A value that cannot be encoded,
such as the identity element of the group, has no payload, and sending it is an error; a payload of
another shape than the one expected fails to decode.
-/

set_option autoImplicit false

namespace NearMpc.Threshold

open Library Library.Outcome

/-! ### Messages -/

/-- The root of a channel: shared by everyone, or private between two participants. -/
inductive ChannelRoot where
  | shared
  | between (first second : Participant)
deriving DecidableEq, Repr

/-- A header used to route a message. -/
structure MessageHeader where
  root : ChannelRoot
  path : List ℕ
  waitpoint : ℕ
deriving DecidableEq, Repr

/-- The root of the channel between two participants, in whichever order they are given. -/
def ChannelRoot.privateBetween (first second : Participant) : ChannelRoot :=
  .between (min first second) (max first second)

inductive Recipient where
  | everyone
  | participant (recipient : Participant)
deriving DecidableEq, Repr

/-- A message to be sent. -/
structure Outgoing (Payload : Type) where
  recipient : Recipient
  header : MessageHeader
  payload : Payload

/-- A message that arrives. -/
structure Incoming (Payload : Type) where
  sender : Participant
  header : MessageHeader
  payload : Payload

/-- The received messages of each header, oldest first. -/
def Inbox (Payload : Type) := MessageHeader → List (Participant × Payload)

variable {Payload Value : Type}

def Inbox.empty : Inbox Payload := fun _ ↦ []

/-- The inbox with one more message. -/
def Inbox.deliver (inbox : Inbox Payload) (message : Incoming Payload) : Inbox Payload :=
  fun header ↦
    if header = message.header then inbox header ++ [(message.sender, message.payload)]
    else inbox header

variable (holds : MessageHeader → Payload → Prop)

/-- Every message of the inbox meets the predicate. -/
def Inbox.All (inbox : Inbox Payload) : Prop :=
  ∀ header, ∀ entry ∈ inbox header, holds header entry.2

theorem Inbox.all_empty : empty.All holds := by
  simp [All, empty]

theorem Inbox.All.deliver {holds : MessageHeader → Payload → Prop} {inbox : Inbox Payload}
    (hall : inbox.All holds) {message : Incoming Payload}
    (hmessage : holds message.header message.payload) : (inbox.deliver message).All holds := by
  intro header entry hentry
  by_cases hheader : header = message.header
  · rw [Inbox.deliver, if_pos hheader, List.mem_append, List.mem_singleton] at hentry
    rcases hentry with hentry | rfl
    · exact hall header entry hentry
    · rw [hheader]
      exact hmessage
  · rw [Inbox.deliver, if_neg hheader] at hentry
    exact hall header entry hentry

/-- A participant's side of a protocol. -/
abbrev Party (Payload Value : Type) :=
  Session (Inbox Payload) (Outgoing Payload) ProtocolError Value

/-- The error of a message that does not decode. -/
def decodeError : ProtocolError := .other "the message does not decode"

/-! ### Channels -/

/-- Sends an encoded value, if there is one. -/
def send (recipient : Recipient) (header : MessageHeader) (encoded : Option Payload) :
    Party Payload Unit := do
  let payload ← (okOr encoded .errorEncoding : Outcome ProtocolError Payload)
  Session.emit { recipient, header, payload }

variable {condition : Inbox Payload → Prop}

theorem ensures_send (recipient : Recipient) (header : MessageHeader) (encoded : Option Payload) :
    (send recipient header encoded).Ensures condition fun _ ↦ True := by
  have hencoded : (Session.lift (okOr encoded .errorEncoding) : Party Payload Payload).Ensures
      condition fun _ ↦ True :=
    Session.Ensures.lift (okOr_ne_panicked _ _) fun _ _ ↦ trivial
  exact hencoded.bind fun payload _ ↦ Session.Ensures.emit _

namespace SharedChannel

def header (waitpoint : ℕ) : MessageHeader := { root := .shared, path := [], waitpoint }

def sendMany (waitpoint : ℕ) (encoded : Option Payload) : Party Payload Unit :=
  send .everyone (header waitpoint) encoded

def sendPrivate (waitpoint : ℕ) (recipient : Participant) (encoded : Option Payload) :
    Party Payload Unit :=
  send (.participant recipient) (header waitpoint) encoded

/-- Sends each participant a value of its own. -/
def sendEach (waitpoint : ℕ) (encode : Participant → Option Payload) :
    List Participant → Party Payload Unit
  | [] => pure ()
  | recipient :: rest => do
      sendPrivate waitpoint recipient (encode recipient)
      sendEach waitpoint encode rest

theorem ensures_sendEach (waitpoint : ℕ) (encode : Participant → Option Payload)
    (recipients : List Participant) :
    (sendEach waitpoint encode recipients).Ensures condition fun _ ↦ True := by
  induction recipients with
  | nil => exact Session.Ensures.pure trivial
  | cons _ _ ih => exact (ensures_send _ _ _).bind fun _ _ ↦ ih

end SharedChannel

structure PrivateChannel where
  recipient : Participant
  root : ChannelRoot
  path : List ℕ

namespace PrivateChannel

def new (me recipient : Participant) : PrivateChannel where
  recipient
  root := ChannelRoot.privateBetween me recipient
  path := []

variable (channel : PrivateChannel)

def child (index : ℕ) : PrivateChannel :=
  { channel with path := channel.path ++ [index] }

def header (waitpoint : ℕ) : MessageHeader where
  root := channel.root
  path := channel.path
  waitpoint

def send (waitpoint : ℕ) (encoded : Option Payload) : Party Payload Unit :=
  Threshold.send (.participant channel.recipient) (channel.header waitpoint) encoded

/-- What a poll of `recv` makes of the next message. A message of another participant is decoded and
dropped, and the call yields: it has no answer until it is polled again. -/
def answer (decode : Payload → Option Value) (peer : Participant)
    (message : Participant × Payload) : Option (Except ProtocolError Value) :=
  match decode message.2 with
  | none => some (.error decodeError)
  | some value => if message.1 = peer then some (.ok value) else none

/-- The answer that a call comes to on these messages, when it is polled until it has one or the
messages are used up. -/
def firstFrom (decode : Payload → Option Value) (peer : Participant) :
    List (Participant × Payload) → Outcome ProtocolError (Option Value)
  | [] => .ok none
  | message :: rest =>
      match answer decode peer message with
      | some (.ok value) => .ok (some value)
      | some (.error failure) => .err failure
      | none => firstFrom decode peer rest

def recv (decode : Payload → Option Value) (waitpoint : ℕ) : Party Payload Value :=
  Session.read fun inbox ↦ firstFrom decode channel.recipient (inbox (channel.header waitpoint))

theorem firstFrom_ne_panicked (decode : Payload → Option Value) (peer : Participant)
    (queue : List (Participant × Payload)) : firstFrom decode peer queue ≠ .panicked := by
  induction queue with
  | nil => simp [firstFrom]
  | cons first _ ih =>
    unfold firstFrom
    rcases answer decode peer first with - | - | -
    exacts [ih, nofun, nofun]

theorem ensures_recv (decode : Payload → Option Value) (waitpoint : ℕ) :
    (channel.recv decode waitpoint).Ensures condition fun _ ↦ True :=
  Session.Ensures.read fun _ _ ↦ ⟨firstFrom_ne_panicked _ _ _, fun _ _ ↦ trivial⟩

end PrivateChannel

/-! ### Gathering -/

/-- The loop of `recv_from_others`: takes the first message of each participant that has not been
seen yet, until everyone has been seen. -/
def gather (decode : Payload → Option Value) (participants : ParticipantList) :
    List Participant → List (Participant × Value) → List (Participant × Payload) →
      Outcome ProtocolError (Option (List (Participant × Value)))
  | seen, messages, queue =>
      if participants.participants.all (· ∈ seen) then .ok (some messages)
      else
        match queue with
        | [] => .ok none
        | (sender, payload) :: rest => do
            let value ← okOr (decode payload) decodeError
            if participants.contains sender ∧ sender ∉ seen then
              gather decode participants (sender :: seen) (messages ++ [(sender, value)]) rest
            else gather decode participants seen messages rest
  termination_by structural _ _ queue => queue

/-- One message from each of the others. -/
def recvFromOthers (decode : Payload → Option Value) (waitpoint : ℕ)
    (participants : ParticipantList) (me : Participant) :
    Party Payload (List (Participant × Value)) :=
  Session.read fun inbox ↦
    gather decode participants [me] [] (inbox (SharedChannel.header waitpoint))

/-- What has been gathered was decoded from messages of the queue. -/
theorem gather_spec {holds : Value → Prop} {decode : Payload → Option Value} {participants queue}
    (hqueue : ∀ entry ∈ queue, ∀ value, decode entry.2 = some value → holds value) {seen messages}
    (hmessages : ∀ entry ∈ messages, holds entry.2) :
    gather decode participants seen messages queue ≠ .panicked ∧
      ∀ gathered, gather decode participants seen messages queue = .ok (some gathered) →
        ∀ entry ∈ gathered, holds entry.2 := by
  induction queue generalizing seen messages with
  | nil =>
    unfold gather
    split_ifs with hseen
    · simpa using hmessages
    · simp
  | cons first _ ih =>
    rw [List.forall_mem_cons] at hqueue
    unfold gather
    split_ifs with hseen
    · simpa using hmessages
    cases hvalue : decode first.2 with
    | none => simp [hvalue, okOr]
    | some value =>
      have hnext : ∀ entry ∈ messages ++ [(first.1, value)], holds entry.2 := by
        intro entry hentry
        rcases List.mem_append.mp hentry with hentry | hentry
        · exact hmessages entry hentry
        · rw [List.mem_singleton.mp hentry]
          exact hqueue.1 value hvalue
      by_cases hsender : participants.contains first.1 = true ∧ first.1 ∉ seen
      · simpa [hvalue, okOr, hsender] using ih hqueue.2 hnext
      · simpa [hvalue, okOr, hsender] using ih hqueue.2 hmessages

theorem ensures_recvFromOthers {holds : Value → Prop} (decode : Payload → Option Value)
    (waitpoint : ℕ) (participants : ParticipantList) (me : Participant)
    (hdecoded : ∀ inbox, condition inbox → ∀ entry ∈ inbox (SharedChannel.header waitpoint),
      ∀ value, decode entry.2 = some value → holds value) :
    (recvFromOthers decode waitpoint participants me).Ensures condition
      fun gathered ↦ ∀ entry ∈ gathered, holds entry.2 :=
  Session.Ensures.read fun inbox hinbox ↦ gather_spec (hdecoded inbox hinbox) (by simp)

/-! ### Maps -/

/-- At most one element for each participant. -/
@[ext] structure ParticipantMap (Value : Type) where
  participants : ParticipantList
  data : Participant → Option Value

namespace ParticipantMap

def new (participants : ParticipantList) : ParticipantMap Value where
  participants
  data := fun _ ↦ none

variable (map : ParticipantMap Value)

/-- Every participant has put something in. -/
def full : Bool :=
  map.participants.participants.all fun participant ↦ (map.data participant).isSome

variable (participant : Participant)

/-- Does nothing if the participant is unknown or already has a value. -/
def put (value : Value) : ParticipantMap Value :=
  if map.participants.contains participant ∧ map.data participant = none then
    { map with data := Function.update map.data participant (some value) }
  else map

@[simp] theorem put_participants (value : Value) :
    (map.put participant value).participants = map.participants := by
  unfold put
  split_ifs <;> rfl

theorem put_data (participant other : Participant) (value : Value) :
    (map.put participant value).data other =
      if (map.participants.contains participant ∧ map.data participant = none) ∧
        other = participant then some value else map.data other := by
  by_cases hnew : map.participants.contains participant ∧ map.data participant = none
  · simp only [put, hnew, and_self, if_true, Function.update_apply, true_and]
  · simp only [put, hnew, false_and, if_false]

/-- An element of the map was there before or has just been put there. -/
theorem eq_of_put {map : ParticipantMap Value} {participant other : Participant}
    {value found : Value} (hfound : (map.put participant value).data other = some found) :
    map.data other = some found ∨ other = participant ∧ found = value := by
  rw [put_data] at hfound
  split_ifs at hfound with hnew
  · exact Or.inr ⟨hnew.2, (Option.some.inj hfound).symm⟩
  · exact Or.inl hfound

theorem put_of_some {map : ParticipantMap Value} (participant : Participant) {other : Participant}
    (value : Value) {found : Value} (hfound : map.data other = some found) :
    (map.put participant value).data other = some found := by
  rw [put_data, if_neg, hfound]
  rintro ⟨⟨-, hnone⟩, rfl⟩
  rw [hfound] at hnone
  cases hnone

theorem exists_put_self {participant : Participant} (value : Value)
    (hcontains : map.participants.contains participant = true) :
    ∃ found, (map.put participant value).data participant = some found := by
  cases hdata : map.data participant with
  | some found => exact ⟨found, put_of_some participant value hdata⟩
  | none => exact ⟨value, by rw [put_data, if_pos ⟨⟨hcontains, hdata⟩, rfl⟩]⟩

def index : Except ProtocolError Value :=
  if map.participants.contains participant then
    match map.data participant with
    | some value => .ok value
    | none => .error (.other "No data found")
  else .error .invalidIndex

/-- The elements in the order of the participants. -/
def toList : List (Option Value) :=
  map.participants.participants.map map.data

end ParticipantMap

/-- The participants that have been counted. -/
structure ParticipantCounter where
  participants : ParticipantList
  seen : Finset Participant := ∅

namespace ParticipantCounter

variable (counter : ParticipantCounter) (participant : Participant)

/-- The participant is in the list and has not been counted yet. -/
def Fresh : Prop :=
  counter.participants.contains participant = true ∧ participant ∉ counter.seen

instance (counter : ParticipantCounter) (participant : Participant) :
    Decidable (counter.Fresh participant) := inferInstanceAs (Decidable (_ ∧ _))

/-- Counts a fresh participant, and says whether it was one. -/
def put : ParticipantCounter × Bool :=
  if counter.Fresh participant then
    ({ counter with seen := insert participant counter.seen }, true)
  else (counter, false)

variable {counter : ParticipantCounter} {participant : Participant}

theorem mem_put_of_mem (other : Participant) (hseen : participant ∈ counter.seen) :
    participant ∈ (counter.put other).1.seen := by
  unfold put
  split_ifs
  · exact Finset.mem_insert_of_mem hseen
  · exact hseen

theorem mem_put_self (hcontains : counter.participants.contains participant = true) :
    participant ∈ (counter.put participant).1.seen := by
  unfold put
  split_ifs with hfresh
  · exact Finset.mem_insert_self _ _
  · by_contra hnotSeen
    exact hfresh ⟨hcontains, hnotSeen⟩

end ParticipantCounter

end NearMpc.Threshold
