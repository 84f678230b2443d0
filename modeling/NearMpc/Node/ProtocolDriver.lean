import NearMpc.Node.Network
import NearMpc.Threshold.Protocol

/-!
# Running a protocol over a channel

The loop that pokes a protocol, sends what it asks to send, and feeds it the computation messages
that its channel receives. Follows `protocol.rs` and the receiving half of `NetworkTaskChannel` in
`network.rs`.

The counters and the queues of the loop are keyed by the participants of the channel. The sender of
a message need not be one of them: the transport authenticates it, and the client hands every
message with the right channel id to the channel. `Moment.runProtocol_ne_panicked_iff` says, for any
protocol, when the loop survives that: a `Moment` is what a protocol has come to between two pokes,
and every moment that it comes to on the messages has to be `Sound`.
-/

set_option autoImplicit false

namespace NearMpc.Node

open Library Library.Outcome
open NearMpc.Threshold (Protocol Action MessageData)

/-! ### Receiving -/

/-- A computation data message received from a participant. -/
structure TaskChannelComputationData where
  sender : ParticipantId
  data : List MessageData

namespace NetworkTaskChannel

/-- Processes one message. -/
def receiveOne (channel : NetworkTaskChannel) (message : MpcPeerMessage) :
    NodeResult (NetworkTaskChannel × Option TaskChannelComputationData) :=
  match message.message.kind with
  | .computation data => .ok (channel, some { sender := message.sender, data })
  | .abort text =>
      if channel.isLeader then
        .err ("Aborted by participant " ++ toString message.sender ++ ": " ++ text)
      else .err ("Aborted by leader: " ++ text)
  | .success =>
      if channel.isLeader then
        .ok ({ channel with
          successfulParticipants := insert message.sender channel.successfulParticipants }, none)
      else .err "Received unexpected Success message when we are not the leader"
  | .start start => .err ("Unexpected Start message: " ++ start.debug)

end NetworkTaskChannel

/-! ### Counters -/

structure PerParticipantCounters where
  sent : ℕ
  inFlight : ℕ
  received : ℕ

namespace PerParticipantCounters

variable (numMessages : ℕ) (counters : PerParticipantCounters)

def queueSend : PerParticipantCounters :=
  { counters with inFlight := counters.inFlight + numMessages }

def send : PerParticipantCounters :=
  { counters with
    sent := counters.sent + numMessages
    inFlight := counters.inFlight - numMessages }

def receive : PerParticipantCounters :=
  { counters with received := counters.received + numMessages }

end PerParticipantCounters

/-- The counters of the participants of a task. -/
structure MessageCounters where
  counters : ParticipantId → Option PerParticipantCounters

namespace MessageCounters

def new (participants : List ParticipantId) : MessageCounters where
  counters := fun id ↦ if id ∈ participants then some ⟨0, 0, 0⟩ else none

/-- Changes the counters of a participant; one without counters panics. -/
def update (change : PerParticipantCounters → PerParticipantCounters) (participant : ParticipantId)
    (table : MessageCounters) : NodeResult MessageCounters := do
  let counters ← unwrap (table.counters participant)
  return { counters := Function.update table.counters participant (some (change counters)) }

variable (participant : ParticipantId) (numMessages : ℕ)

def queueSend : MessageCounters →
    NodeResult MessageCounters :=
  update (·.queueSend numMessages) participant

def sent : MessageCounters →
    NodeResult MessageCounters :=
  update (·.send numMessages) participant

def received : MessageCounters →
    NodeResult MessageCounters :=
  update (·.receive numMessages) participant

/-- The participants with counters are the listed ones. -/
def Covers (table : MessageCounters) (participants : List ParticipantId) : Prop :=
  ∀ id, (table.counters id).isSome ↔ id ∈ participants

theorem covers_new (participants : List ParticipantId) :
    (new participants).Covers participants := by
  intro id
  by_cases hid : id ∈ participants <;> simp [new, hid]

/-- A change succeeds exactly for a participant with counters, and keeps the participants. -/
theorem Covers.update {table : MessageCounters} {participants : List ParticipantId}
    (hcovers : table.Covers participants)
    (change : PerParticipantCounters → PerParticipantCounters) (participant : ParticipantId) :
    (participant ∈ participants ∧ ∃ after, table.update change participant = .ok after ∧
      after.Covers participants) ∨
    (participant ∉ participants ∧ table.update change participant = .panicked) := by
  by_cases hmem : participant ∈ participants
  · obtain ⟨counters, hcounters⟩ := Option.isSome_iff_exists.mp ((hcovers participant).mpr hmem)
    refine .inl ⟨hmem,
      { counters := Function.update table.counters participant (some (change counters)) }, ?_,
      fun id ↦ ?_⟩
    · rw [MessageCounters.update, hcounters]
      rfl
    · by_cases hid : id = participant
      · simp [hid, hmem]
      · simpa [Function.update_of_ne hid] using hcovers id
  · refine .inr ⟨hmem, ?_⟩
    have hnone : table.counters participant = none := by
      rw [← Option.not_isSome_iff_eq_none, hcovers participant]
      exact hmem
    rw [MessageCounters.update, hnone]
    rfl

end MessageCounters

/-! ### The loop -/

/-- The messages collected for each recipient. -/
abbrev MessagesToSend := List (ParticipantId × List MessageData)

variable {recipients : List ParticipantId}

namespace MessagesToSend

/-- Appends a message to those of its recipient. -/
def push (recipient : ParticipantId) (data : MessageData) : MessagesToSend → MessagesToSend
  | [] => [(recipient, [data])]
  | (other, messages) :: rest =>
      if other = recipient then (other, messages ++ [data]) :: rest
      else (other, messages) :: push recipient data rest

/-- Appends a message to those of every listed recipient. -/
def pushAll (recipients : List ParticipantId) (data : MessageData) (toSend : MessagesToSend) :
    MessagesToSend :=
  recipients.foldl (fun toSend recipient ↦ push recipient data toSend) toSend

/-- Some message is collected for the recipient. -/
def Gets (id : ParticipantId) (toSend : MessagesToSend) : Prop :=
  ∃ messages, messages ≠ [] ∧ (id, messages) ∈ toSend

variable {toSend : MessagesToSend} {id : ParticipantId} {data : MessageData}

theorem gets_cons {entry} :
    Gets id (entry :: toSend) ↔ (entry.1 = id ∧ entry.2 ≠ []) ∨ Gets id toSend := by
  unfold Gets
  constructor
  · rintro ⟨messages, hfilled, hmem⟩
    rcases List.mem_cons.mp hmem with rfl | hmem
    · exact .inl ⟨rfl, hfilled⟩
    · exact .inr ⟨messages, hfilled, hmem⟩
  · rintro (⟨rfl, hfilled⟩ | ⟨messages, hfilled, hmem⟩)
    · exact ⟨entry.2, hfilled, List.mem_cons_self⟩
    · exact ⟨messages, hfilled, List.mem_cons_of_mem _ hmem⟩

theorem gets_push {recipient} :
    Gets id (push recipient data toSend) ↔ recipient = id ∨ Gets id toSend := by
  induction toSend with
  | nil => simp [push, Gets, eq_comm]
  | cons entry _ ih =>
    unfold push
    split_ifs with hother
    · subst hother
      simp only [gets_cons, ne_eq, List.append_eq_nil_iff, List.cons_ne_nil, and_false]
      tauto
    · simp only [gets_cons, ih]
      tauto

theorem gets_pushAll :
    Gets id (pushAll recipients data toSend) ↔ id ∈ recipients ∨ Gets id toSend := by
  induction recipients generalizing toSend with
  | nil => simp [pushAll]
  | cons recipient _ ih =>
    rw [pushAll, List.foldl_cons, ← pushAll, ih, gets_push, List.mem_cons]
    grind

/-- The recipients outside the participants are the listed ones. -/
def Collects (participants recipients : List ParticipantId) (toSend : MessagesToSend) : Prop :=
  ∀ id ∉ participants, Gets id toSend ↔ id ∈ recipients

end MessagesToSend

section

variable {Output : Type}

/-- Pokes the protocol until it waits, returns or fails, and collects what it asks to send. `none`
after as many pokes as given: the protocol is still computing. -/
def computeUntilIdle (channel : NetworkTaskChannel) (protocol : Protocol Output) :
    (pokes : ℕ) → protocol.State → MessagesToSend →
      NodeResult (Option (protocol.State × MessagesToSend × Option Output))
  | 0, _, _ => .ok none
  | pokes + 1, state, toSend =>
      match protocol.poke state with
      | (_, .panicked) => .panicked
      | (_, .err failure) => .err failure.display
      | (next, .ok .wait) => .ok (some (next, toSend, none))
      | (next, .ok (.sendMany data)) =>
          computeUntilIdle channel protocol pokes next
            (toSend.pushAll (channel.participants.filter (· ≠ channel.myParticipantId)) data)
      | (next, .ok (.sendPrivate recipient data)) =>
          computeUntilIdle channel protocol pokes next (toSend.push recipient data)
      | (next, .ok (.returned result)) => .ok (some (next, toSend, some result))

/-- Queues the messages for each recipient and sends them. -/
def sendMessages (participants : List ParticipantId) (sending : ParticipantId → Option NodeError) :
    MessagesToSend → MessageCounters → NodeResult MessageCounters
  | [], counters => .ok counters
  | (recipient, messages) :: rest, counters =>
      if messages = [] then sendMessages participants sending rest counters
      else do
        let counters ← counters.queueSend recipient messages.length
        guardPanic (recipient ∈ participants)
        match sending recipient with
        | some failure => .err failure
        | none => do
            let counters ← counters.sent recipient messages.length
            sendMessages participants sending rest counters

/-- What a round of the loop depends on besides its messages: how often the protocol has been poked
when the run is looked at, and how sending to each recipient goes. -/
structure Round where
  pokes : ℕ
  sending : ParticipantId → Option NodeError

/-- The state of the loop. -/
structure Driver (protocol : Protocol Output) where
  state : protocol.State
  counters : MessageCounters

variable {protocol : Protocol Output}

/-- Sends the messages of a round. -/
def Driver.finish (sending : ParticipantId → Option NodeError) (channel : NetworkTaskChannel)
    (counters : MessageCounters) :
    Option (protocol.State × MessagesToSend × Option Output) →
      NodeResult (Option (Driver protocol × Option Output))
  | none => .ok none
  | some (state, toSend, done) => do
      let counters ← sendMessages channel.participants sending toSend counters
      return some ({ state, counters }, done)

/-- Computes as far as possible and sends the messages of that round. -/
def Driver.compute (round : Round) (channel : NetworkTaskChannel) (driver : Driver protocol) :
    NodeResult (Option (Driver protocol × Option Output)) := do
  let idle ← computeUntilIdle channel protocol round.pokes driver.state []
  finish round.sending channel driver.counters idle

/-- Informs the protocol of each message in turn. -/
def informProtocol (protocol : Protocol Output) (sender : ParticipantId) :
    List MessageData → protocol.State → NodeResult protocol.State
  | [], state => .ok state
  | data :: rest, state =>
      match protocol.message state sender data with
      | (_, .error failure) => .err failure.display
      | (next, .ok ()) => informProtocol protocol sender rest next

/-- The loop from where it waits for a message. With no message left it keeps waiting. -/
def Driver.receive (rounds : ℕ → Round) (channel : NetworkTaskChannel) (driver : Driver protocol) :
    List MpcPeerMessage → NodeResult (Option Output)
  | [] => .ok none
  | message :: rest => do
      match ← channel.receiveOne message with
      | (channel, none) => Driver.receive rounds channel driver rest
      | (channel, some received) => do
          let counters ← driver.counters.received received.sender received.data.length
          let state ← informProtocol protocol received.sender received.data driver.state
          match ← Driver.compute (rounds 0) channel { state, counters } with
          | none => return none
          | some (_, some result) => return some result
          | some (driver, none) =>
              Driver.receive (fun round ↦ rounds (round + 1)) channel driver rest

/-- The loop after a round: it ends with a result, or waits for the next message. -/
def Driver.proceed (rounds : ℕ → Round) (channel : NetworkTaskChannel)
    (messages : List MpcPeerMessage) :
    Option (Driver protocol × Option Output) → NodeResult (Option Output)
  | none => .ok none
  | some (_, some result) => .ok (some result)
  | some (driver, none) => driver.receive rounds channel messages

end

/-- Runs a protocol over a channel, on the messages the channel has received. `none`: it is still
waiting or computing. -/
def runProtocol (rounds : ℕ → Round) (channel : NetworkTaskChannel) {Output : Type}
    (protocol : Protocol Output) : NodeResult (Option Output) := do
  let driver : Driver protocol :=
    { state := protocol.start, counters := .new channel.participants }
  let outcome ← driver.compute (rounds 0) channel
  Driver.proceed (fun round ↦ rounds (round + 1)) channel channel.receiver outcome

/-! ### What a protocol asks for on given messages -/

/-- The next computation message, and the messages after it. There is none behind a message that
ends the task. -/
def nextComputation (isLeader : Bool) :
    List MpcPeerMessage → Option (TaskChannelComputationData × List MpcPeerMessage)
  | [] => none
  | message :: rest =>
      match message.message.kind with
      | .computation data => some ({ sender := message.sender, data }, rest)
      | .success => if isLeader then nextComputation isLeader rest else none
      | .abort _ => none
      | .start _ => none

/-- A protocol that is about to be poked, with the messages it has not been told about and the
recipients of the private messages it has asked for since it last waited. -/
structure Moment {Output : Type} (protocol : Protocol Output) where
  messages : List MpcPeerMessage
  state : protocol.State
  recipients : List ParticipantId

namespace Moment

variable {Output : Type} {protocol : Protocol Output}

/-- From one poke to the next. A protocol that waits is told the next computation message. -/
inductive Step (isLeader : Bool) : Moment protocol → Moment protocol → Prop where
  | sendMany {moment : Moment protocol} {next data} :
      protocol.poke moment.state = (next, .ok (.sendMany data)) →
      Step isLeader moment { moment with state := next }
  | sendPrivate {moment : Moment protocol} {next recipient data} :
      protocol.poke moment.state = (next, .ok (.sendPrivate recipient data)) →
      Step isLeader moment
        { moment with state := next, recipients := recipient :: moment.recipients }
  | receive {moment : Moment protocol} {waiting next received rest} :
      protocol.poke moment.state = (waiting, .ok .wait) →
      nextComputation isLeader moment.messages = some (received, rest) →
      informProtocol protocol received.sender received.data waiting = .ok next →
      Step isLeader moment { messages := rest, state := next, recipients := [] }

/-- The poke does not panic. Where the round ends with it, the private messages are for
participants; where the protocol waits, so is the sender of the next computation message. -/
structure Sound (isLeader : Bool) (participants : List ParticipantId) (moment : Moment protocol) :
    Prop where
  poke_ne_panicked : (protocol.poke moment.state).2 ≠ .panicked
  recipients_returned : ∀ result, (protocol.poke moment.state).2 = .ok (.returned result) →
    ∀ recipient ∈ moment.recipients, recipient ∈ participants
  recipients_wait : (protocol.poke moment.state).2 = .ok .wait →
    ∀ recipient ∈ moment.recipients, recipient ∈ participants
  sender_mem : (protocol.poke moment.state).2 = .ok .wait →
    ∀ received rest, nextComputation isLeader moment.messages = some (received, rest) →
      received.sender ∈ participants

end Moment

/-! ### What the loop can do -/

section

variable {Output : Type} {protocol : Protocol Output} {channel : NetworkTaskChannel}

variable {participants : List ParticipantId}

/-- Messages for participants are sent, unless sending fails. A message for anyone else panics. -/
theorem sendMessages_cases (sending : ParticipantId → Option NodeError) (toSend : MessagesToSend)
    {counters : MessageCounters} (hcovers : counters.Covers participants) :
    (∃ after, sendMessages participants sending toSend counters = .ok after ∧
      after.Covers participants ∧ ∀ id, toSend.Gets id → id ∈ participants) ∨
    (∃ failure id, sendMessages participants sending toSend counters = .err failure ∧
      sending id ≠ none) ∨
    (sendMessages participants sending toSend counters = .panicked ∧
      ∃ id ∉ participants, toSend.Gets id) := by
  induction toSend generalizing counters with
  | nil => exact .inl ⟨counters, rfl, hcovers, by simp [MessagesToSend.Gets]⟩
  | cons entry rest ih =>
    rcases entry with ⟨recipient, messages⟩
    unfold sendMessages
    split_ifs with hempty
    · simpa [MessagesToSend.gets_cons, hempty] using ih hcovers
    rcases hcovers.update (·.queueSend messages.length) recipient with
      ⟨hmem, queued, hqueued, hcovers⟩ | ⟨houtside, hpanic⟩
    swap
    · refine .inr (.inr ⟨?_, recipient, houtside,
        MessagesToSend.gets_cons.mpr (.inl ⟨rfl, hempty⟩)⟩)
      rw [MessageCounters.queueSend, hpanic, panicked_bind]
    rw [MessageCounters.queueSend, hqueued, ok_bind, guardPanic, if_pos hmem, ok_bind]
    cases hsending : sending recipient with
    | some failure => exact .inr (.inl ⟨failure, recipient, rfl, by simp [hsending]⟩)
    | none =>
      rcases hcovers.update (·.send messages.length) recipient with
        ⟨-, sent, hsent, hcovers⟩ | ⟨houtside, -⟩
      swap
      · exact absurd hmem houtside
      simp only [MessageCounters.sent, hsent, ok_bind, MessagesToSend.gets_cons]
      rcases ih hcovers with ⟨after, hok, hafter, hrest⟩ | herr | ⟨hpanic, id, houtside, hgets⟩
      · refine .inl ⟨after, hok, hafter, ?_⟩
        rintro id (⟨rfl, -⟩ | hgets)
        exacts [hmem, hrest id hgets]
      · exact .inr (.inl herr)
      · exact .inr (.inr ⟨hpanic, id, houtside, .inr hgets⟩)

theorem informProtocol_ne_panicked (sender : ParticipantId) (messages : List MessageData)
    (state : protocol.State) : informProtocol protocol sender messages state ≠ .panicked := by
  induction messages generalizing state with
  | nil => simp [informProtocol]
  | cons _ _ ih =>
    unfold informProtocol
    split
    next => simp
    next next _ => exact ih next

variable {received : TaskChannelComputationData}

theorem length_lt_of_nextComputation {isLeader messages rest}
    (hnext : nextComputation isLeader messages = some (received, rest)) :
    rest.length < messages.length := by
  induction messages with
  | nil => simp [nextComputation] at hnext
  | cons message tail ih =>
    unfold nextComputation at hnext
    cases hkind : message.message.kind with
    | start | abort => simp [hkind] at hnext
    | success =>
      have hrest : rest.length < tail.length := ih (by grind)
      exact hrest.trans (Nat.lt_succ_self _)
    | computation =>
      simp only [hkind, Option.some.injEq, Prod.mk.injEq] at hnext
      simp [hnext.2]

/-- The loop with a message to tell the protocol. -/
def Driver.deliver (rounds : ℕ → Round) (channel : NetworkTaskChannel) (driver : Driver protocol)
    (received : TaskChannelComputationData) (rest : List MpcPeerMessage) :
    NodeResult (Option Output) := do
  let counters ← driver.counters.received received.sender received.data.length
  let state ← informProtocol protocol received.sender received.data driver.state
  let outcome ← Driver.compute (rounds 0) channel { state, counters }
  proceed (fun round ↦ rounds (round + 1)) channel rest outcome

/-- A loop that waits goes on with the next computation message. Without one it does not panic. -/
theorem Driver.receive_cases (channel : NetworkTaskChannel) (messages : List MpcPeerMessage) :
    (nextComputation channel.isLeader messages = none ∧
      ∀ rounds (driver : Driver protocol), driver.receive rounds channel messages ≠ .panicked) ∨
    ∃ received rest successful,
      nextComputation channel.isLeader messages = some (received, rest) ∧
      ∀ rounds (driver : Driver protocol), driver.receive rounds channel messages =
        driver.deliver rounds { channel with successfulParticipants := successful } received
          rest := by
  induction messages generalizing channel with
  | nil => exact .inl ⟨rfl, by simp [Driver.receive]⟩
  | cons message rest ih =>
    unfold Driver.receive nextComputation NetworkTaskChannel.receiveOne
    cases hkind : message.message.kind with
    | start => exact .inl ⟨rfl, by simp⟩
    | abort => exact .inl ⟨rfl, by cases channel.isLeader <;> simp⟩
    | success =>
      cases hleader : channel.isLeader with
      | false => exact .inl ⟨rfl, by simp⟩
      | true =>
        have hrest := ih { channel with
          successfulParticipants := insert message.sender channel.successfulParticipants }
        rwa [show NetworkTaskChannel.isLeader { channel with
          successfulParticipants := insert message.sender channel.successfulParticipants } = true
          from hleader] at hrest
    | computation data =>
      refine .inr ⟨_, rest, channel.successfulParticipants, rfl, fun rounds driver ↦ ?_⟩
      simp only [ok_bind, Driver.deliver]
      refine congrArg _ (funext fun counters ↦ congrArg _ (funext fun state ↦
        congrArg _ (funext fun outcome ↦ ?_)))
      rcases outcome with - | ⟨driver, - | result⟩ <;> rfl

theorem Driver.receive_eq_deliver (channel : NetworkTaskChannel) {messages rest}
    (hnext : nextComputation channel.isLeader messages = some (received, rest)) :
    ∃ successful, ∀ rounds (driver : Driver protocol), driver.receive rounds channel messages =
      driver.deliver rounds { channel with successfulParticipants := successful } received
        rest := by
  rcases Driver.receive_cases channel messages with
    ⟨hnone, -⟩ | ⟨_, _, successful, hsome, hreceive⟩
  · rw [hnone] at hnext
    cases hnext
  · rw [hsome] at hnext
    cases hnext
    exact ⟨successful, hreceive⟩

/-! ### When the loop does not panic -/

namespace Moment

variable {rounds : ℕ → Round} {round : Round} {counters : MessageCounters}
  {toSend : MessagesToSend} {moment : Moment protocol}

/-- The loop from a moment on, in a round with the messages collected so far. -/
def resume (round : Round) (rounds : ℕ → Round) (channel : NetworkTaskChannel)
    (counters : MessageCounters) (toSend : MessagesToSend) (moment : Moment protocol) :
    NodeResult (Option Output) :=
  (computeUntilIdle channel protocol round.pokes moment.state toSend >>=
    Driver.finish round.sending channel counters) >>=
      Driver.proceed rounds channel moment.messages

/-- The first moment of a run. -/
def first (protocol : Protocol Output) (messages : List MpcPeerMessage) : Moment protocol :=
  { messages, state := protocol.start, recipients := [] }

theorem runProtocol_eq (rounds : ℕ → Round) (channel : NetworkTaskChannel) :
    runProtocol rounds channel protocol =
      (first protocol channel.receiver).resume (rounds 0) (fun round ↦ rounds (round + 1)) channel
        (.new channel.participants) [] := rfl

theorem collects_nil (participants : List ParticipantId) :
    MessagesToSend.Collects participants [] [] := by
  simp [MessagesToSend.Collects, MessagesToSend.Gets]

/-- Messages to all participants add no recipient outside them. -/
theorem collects_pushAll (data : MessageData)
    (hcollects : MessagesToSend.Collects channel.participants recipients toSend) :
    MessagesToSend.Collects channel.participants recipients
      (toSend.pushAll (channel.participants.filter (· ≠ channel.myParticipantId)) data) := by
  intro id hid
  rw [MessagesToSend.gets_pushAll, hcollects id hid]
  simp [hid]

theorem collects_push (recipient : ParticipantId) (data : MessageData)
    (hcollects : MessagesToSend.Collects channel.participants recipients toSend) :
    MessagesToSend.Collects channel.participants (recipient :: recipients)
      (toSend.push recipient data) := by
  intro id hid
  rw [MessagesToSend.gets_push, hcollects id hid, List.mem_cons, eq_comm]

/-- Poking from a moment on: the loop stops there, or it comes to a moment of the same round at
which the poke panics or the round ends. -/
theorem computeUntilIdle_cases (moment : Moment protocol) (pokes : ℕ)
    (hcollects : MessagesToSend.Collects channel.participants moment.recipients toSend) :
    (computeUntilIdle channel protocol pokes moment.state toSend = .ok none) ∨
    (∃ failure, computeUntilIdle channel protocol pokes moment.state toSend = .err failure) ∨
    ∃ later : Moment protocol,
      Relation.ReflTransGen (Step channel.isLeader) moment later ∧
      later.messages = moment.messages ∧
      (((protocol.poke later.state).2 = .panicked ∧
        computeUntilIdle channel protocol pokes moment.state toSend = .panicked) ∨
      ∃ collected,
        MessagesToSend.Collects channel.participants later.recipients collected ∧
        ((∃ next, protocol.poke later.state = (next, .ok .wait) ∧
          computeUntilIdle channel protocol pokes moment.state toSend =
            .ok (some (next, collected, none))) ∨
        ∃ next result, protocol.poke later.state = (next, .ok (.returned result)) ∧
          computeUntilIdle channel protocol pokes moment.state toSend =
            .ok (some (next, collected, some result)))) := by
  induction pokes generalizing moment toSend with
  | zero => exact .inl rfl
  | succ _ ih =>
    unfold computeUntilIdle
    split
    next _ hpoke => exact .inr (.inr ⟨moment, .refl, rfl, .inl ⟨by rw [hpoke], rfl⟩⟩)
    next => exact .inr (.inl ⟨_, rfl⟩)
    next next hpoke =>
      exact .inr (.inr ⟨moment, .refl, rfl, .inr ⟨toSend, hcollects, .inl ⟨next, hpoke, rfl⟩⟩⟩)
    next next data hpoke =>
      rcases ih { moment with state := next } (collects_pushAll data hcollects) with
        hnone | herr | ⟨later, hreaches, hrest⟩
      · exact .inl hnone
      · exact .inr (.inl herr)
      · exact .inr (.inr ⟨later, hreaches.head (.sendMany hpoke), hrest⟩)
    next next recipient data hpoke =>
      rcases ih
          { moment with state := next, recipients := recipient :: moment.recipients }
          (collects_push recipient data hcollects) with
        hnone | herr | ⟨later, hreaches, hrest⟩
      · exact .inl hnone
      · exact .inr (.inl herr)
      · exact .inr (.inr ⟨later, hreaches.head (.sendPrivate hpoke), hrest⟩)
    next next result hpoke =>
      exact .inr (.inr ⟨moment, .refl, rfl,
        .inr ⟨toSend, hcollects, .inr ⟨next, result, hpoke, rfl⟩⟩⟩)

/-- In a round of a sound run that ends, everything is sent, unless sending fails. -/
theorem sendMessages_ne_panicked (sending : ParticipantId → Option NodeError)
    (hcovers : counters.Covers channel.participants)
    (hcollects : MessagesToSend.Collects channel.participants moment.recipients toSend)
    (hrecipients : ∀ recipient ∈ moment.recipients, recipient ∈ channel.participants) :
    (∃ failure, sendMessages channel.participants sending toSend counters = .err failure) ∨
    ∃ after, sendMessages channel.participants sending toSend counters = .ok after ∧
      after.Covers channel.participants := by
  rcases sendMessages_cases sending toSend hcovers with
    ⟨after, hok, hafter, -⟩ | ⟨failure, -, herr, -⟩ | ⟨-, id, houtside, hgets⟩
  · exact .inr ⟨after, hok, hafter⟩
  · exact .inl ⟨failure, herr⟩
  · exact absurd (hrecipients id ((hcollects id houtside).mp hgets)) houtside

/-- The loop does not panic from a moment on when all that it can come to is sound. -/
theorem resume_ne_panicked (channel : NetworkTaskChannel) (moment : Moment protocol)
    (hsound : ∀ later, Relation.ReflTransGen (Step channel.isLeader) moment later →
      later.Sound channel.isLeader channel.participants)
    (hcovers : counters.Covers channel.participants)
    (hcollects : MessagesToSend.Collects channel.participants moment.recipients toSend) :
    moment.resume round rounds channel counters toSend ≠ .panicked := by
  -- each message that the protocol is told shortens the list of those it has not been told
  induction hlength : moment.messages.length using Nat.strong_induction_on
    generalizing moment round rounds channel counters toSend with
  | _ length ih =>
    unfold resume
    rcases computeUntilIdle_cases moment round.pokes hcollects with
      hnone | ⟨failure, herr⟩ | ⟨later, hreaches, hmessages, hlater⟩
    · simp [hnone, Driver.finish, Driver.proceed]
    · simp [herr]
    have hlaterSound := hsound later hreaches
    rcases hlater with ⟨hpanics, -⟩ | ⟨collected, hcollected, ⟨next, hpoke, hidle⟩ |
      ⟨next, result, hpoke, hidle⟩⟩
    · exact absurd hpanics hlaterSound.poke_ne_panicked
    · rw [hidle, ok_bind, Driver.finish]
      rcases sendMessages_ne_panicked round.sending hcovers hcollected
          (hlaterSound.recipients_wait (by rw [hpoke])) with ⟨failure, herr⟩ | ⟨after, hok, hafter⟩
      · simp [herr]
      rw [hok, ok_bind, pure_eq, ok_bind, Driver.proceed, ← hmessages]
      rcases Driver.receive_cases channel later.messages with
        ⟨-, hnever⟩ | ⟨received, rest, successful, hnext, hreceive⟩
      · exact hnever _ _
      have hsender := hlaterSound.sender_mem (by rw [hpoke]) received rest hnext
      rw [hreceive, Driver.deliver, MessageCounters.received]
      rcases hafter.update (·.receive received.data.length) received.sender with
        ⟨-, told, htold, hcovers⟩ | ⟨houtside, -⟩
      swap
      · exact absurd hsender houtside
      rw [htold, ok_bind]
      cases hinform : informProtocol protocol received.sender received.data next with
      | err => simp
      | panicked => exact absurd hinform (informProtocol_ne_panicked _ _ _)
      | ok state =>
        have hstep : Step channel.isLeader later ⟨rest, state, []⟩ := .receive hpoke hnext hinform
        have hshorter : rest.length < length := by
          rw [← hlength, ← hmessages]
          exact length_lt_of_nextComputation hnext
        exact ih rest.length hshorter { channel with successfulParticipants := successful }
          ⟨rest, state, []⟩
          (fun last hlast ↦ hsound last ((hreaches.tail hstep).trans hlast))
          hcovers (collects_nil _) rfl
    · rw [hidle, ok_bind, Driver.finish]
      rcases sendMessages_ne_panicked round.sending hcovers hcollected
          (hlaterSound.recipients_returned result (by rw [hpoke])) with
        ⟨failure, herr⟩ | ⟨after, hok, -⟩
      · simp [herr]
      · simp [hok, Driver.proceed]

/-- Some loop that has come to this moment does not panic, however often it is poked and while
sending succeeds. -/
def Survives (isLeader : Bool) (participants : List ParticipantId) (moment : Moment protocol) :
    Prop :=
  ∃ (channel : NetworkTaskChannel) (toSend : MessagesToSend) (counters : MessageCounters),
    channel.isLeader = isLeader ∧ channel.participants = participants ∧
    toSend.Collects channel.participants moment.recipients ∧
    counters.Covers channel.participants ∧
    ∀ pokes rounds,
      moment.resume ⟨pokes, fun _ ↦ none⟩ rounds channel counters toSend ≠ .panicked

/-- A round that ends, of a loop that does not panic, has sent to participants only. -/
theorem sent_of_resume_ne_panicked {next done} (hcovers : counters.Covers channel.participants)
    (hcollects : MessagesToSend.Collects channel.participants moment.recipients toSend)
    (hidle : computeUntilIdle channel protocol 1 moment.state toSend =
      .ok (some (next, toSend, done)))
    (hnever : moment.resume ⟨1, fun _ ↦ none⟩ rounds channel counters toSend ≠ .panicked) :
    (∀ recipient ∈ moment.recipients, recipient ∈ channel.participants) ∧
    ∃ after : MessageCounters, after.Covers channel.participants ∧
      ∀ rounds, moment.resume ⟨1, fun _ ↦ none⟩ rounds channel counters toSend =
        Driver.proceed rounds channel moment.messages (some (⟨next, after⟩, done)) := by
  unfold resume at hnever ⊢
  rw [hidle, ok_bind, Driver.finish] at hnever ⊢
  rcases sendMessages_cases (fun _ ↦ none) toSend hcovers with
    ⟨after, hok, hafter, hmem⟩ | ⟨-, -, -, hfails⟩ | ⟨hpanic, -⟩
  · refine ⟨fun recipient hrecipient ↦ ?_, after, hafter, fun rounds ↦ by rw [hok]; rfl⟩
    by_contra houtside
    exact houtside (hmem recipient ((hcollects recipient houtside).mpr hrecipient))
  · exact absurd rfl hfails
  · simp [hpanic] at hnever

/-- If the loop does not panic from a moment on, neither does it from the next one. -/
theorem Survives.step {isLeader : Bool} {later : Moment protocol}
    (hsurvives : moment.Survives isLeader participants) (hstep : Step isLeader moment later) :
    later.Survives isLeader participants := by
  obtain ⟨channel, toSend, counters, rfl, rfl, hcollects, hcovers, hnever⟩ := hsurvives
  cases hstep with
  | @sendMany next data hpoke =>
    refine ⟨channel, _, counters, rfl, rfl, collects_pushAll data hcollects, hcovers,
      fun pokes rounds ↦ ?_⟩
    have hresume := hnever (pokes + 1) rounds
    unfold resume computeUntilIdle at hresume
    rw [hpoke] at hresume
    exact hresume
  | @sendPrivate next recipient data hpoke =>
    refine ⟨channel, _, counters, rfl, rfl, collects_push recipient data hcollects, hcovers,
      fun pokes rounds ↦ ?_⟩
    have hresume := hnever (pokes + 1) rounds
    unfold resume computeUntilIdle at hresume
    rw [hpoke] at hresume
    exact hresume
  | @receive waiting next received rest hpoke hnext hinform =>
    have hidle : computeUntilIdle channel protocol 1 moment.state toSend =
        .ok (some (waiting, toSend, none)) := by
      simp [computeUntilIdle, hpoke]
    obtain ⟨-, after, hafter, hresume⟩ := sent_of_resume_ne_panicked hcovers hcollects hidle
      (hnever 1 fun _ ↦ ⟨0, fun _ ↦ none⟩)
    obtain ⟨successful, hreceive⟩ := Driver.receive_eq_deliver channel hnext
    rcases hafter.update (·.receive received.data.length) received.sender with
      ⟨-, told, htold, hcovers⟩ | ⟨-, hpanic⟩
    · refine ⟨{ channel with successfulParticipants := successful }, [], told, rfl, rfl,
        collects_nil _, hcovers, fun pokes rounds ↦ ?_⟩
      have hdeliver := hnever 1 fun round ↦ round.casesOn ⟨pokes, fun _ ↦ none⟩ rounds
      rw [hresume, Driver.proceed, hreceive, Driver.deliver, MessageCounters.received, htold,
        ok_bind, hinform, ok_bind] at hdeliver
      exact hdeliver
    · refine absurd ?_ (hnever 1 fun _ ↦ ⟨0, fun _ ↦ none⟩)
      rw [hresume, Driver.proceed, hreceive, Driver.deliver, MessageCounters.received, hpanic,
        panicked_bind]

theorem Survives.sound {isLeader : Bool} (hsurvives : moment.Survives isLeader participants) :
    moment.Sound isLeader participants := by
  obtain ⟨channel, toSend, counters, rfl, rfl, hcollects, hcovers, hnever⟩ := hsurvives
  have honce := hnever 1 fun _ ↦ ⟨0, fun _ ↦ none⟩
  -- one more poke, with the round it ends
  obtain ⟨next, action, hpoke⟩ : ∃ next action, protocol.poke moment.state = (next, action) :=
    ⟨_, _, rfl⟩
  have hidle : ∀ done, action = .ok .wait ∧ done = none ∨
      (∃ result, action = .ok (.returned result) ∧ done = some result) →
      computeUntilIdle channel protocol 1 moment.state toSend =
        .ok (some (next, toSend, done)) := by
    rintro done (⟨rfl, rfl⟩ | ⟨result, rfl, rfl⟩) <;> simp [computeUntilIdle, hpoke]
  constructor
  · intro hpanics
    apply honce
    obtain rfl : action = .panicked := by rw [← hpanics, hpoke]
    simp [resume, computeUntilIdle, hpoke]
  · intro result hreturned
    exact (sent_of_resume_ne_panicked hcovers hcollects
      (hidle (some result) (.inr ⟨result, by rw [← hreturned, hpoke], rfl⟩)) honce).1
  · intro hwait
    exact (sent_of_resume_ne_panicked hcovers hcollects
      (hidle none (.inl ⟨by rw [← hwait, hpoke], rfl⟩)) honce).1
  · intro hwait received rest hnext
    obtain ⟨-, after, hafter, hresume⟩ := sent_of_resume_ne_panicked hcovers hcollects
      (hidle none (.inl ⟨by rw [← hwait, hpoke], rfl⟩)) honce
    rcases hafter.update (·.receive received.data.length) received.sender with
      ⟨hmem, -⟩ | ⟨-, hpanic⟩
    · exact hmem
    obtain ⟨successful, hreceive⟩ := Driver.receive_eq_deliver channel hnext
    refine absurd ?_ honce
    rw [hresume, Driver.proceed, hreceive, Driver.deliver, MessageCounters.received, hpanic,
      panicked_bind]

/-- The loop never panics on the messages of its channel exactly when every moment that the protocol
comes to on them is sound. -/
theorem runProtocol_ne_panicked_iff (channel : NetworkTaskChannel) (protocol : Protocol Output) :
    (∀ rounds, runProtocol rounds channel protocol ≠ .panicked) ↔
    ∀ moment, Relation.ReflTransGen (Step channel.isLeader) (first protocol channel.receiver)
      moment → moment.Sound channel.isLeader channel.participants := by
  constructor
  · intro hnever moment hreaches
    have hfirst : (first protocol channel.receiver).Survives channel.isLeader
        channel.participants := by
      refine ⟨channel, [], .new channel.participants, rfl, rfl, collects_nil _,
        MessageCounters.covers_new _, fun pokes rounds ↦ ?_⟩
      exact hnever fun round ↦ round.casesOn ⟨pokes, fun _ ↦ none⟩ rounds
    refine Survives.sound ?_
    induction hreaches with
    | refl => exact hfirst
    | tail _ hstep hsurvives => exact hsurvives.step hstep
  · intro hsound rounds
    rw [runProtocol_eq]
    exact resume_ne_panicked channel _ hsound (MessageCounters.covers_new _) (collects_nil _)

end Moment

end

/-! ### Delivery to a channel that is alive -/

namespace NetworkTaskChannel

/-- The channel once it has received the messages too. -/
def enqueueAll (messages : List MpcPeerMessage) (channel : NetworkTaskChannel) :
    NetworkTaskChannel :=
  { channel with receiver := channel.receiver ++ messages }

theorem enqueueAll_cons {message : MpcPeerMessage} (rest : List MpcPeerMessage)
    {channel : NetworkTaskChannel} (hid : message.message.channelId = channel.channelId) :
    channel.enqueueAll (message :: rest) = (channel.enqueue message).enqueueAll rest := by
  simp [enqueueAll, enqueue, hid]

end NetworkTaskChannel

namespace MeshNetworkClient

variable {lru : LruCache ChannelId (List MpcPeerMessage)} {client : MeshNetworkClient lru}
  {transport : Transport} {message : MpcPeerMessage} {channel : NetworkTaskChannel}

/-- A message for a channel that is alive ends up in its buffer. -/
theorem Backed.runReceiveMessage_live (hbacked : client.Backed) (transport : Transport)
    (hlive : message.message.channelId ∈ client.liveIds) :
    MeshNetworkClient.runReceiveMessage transport message client =
      ({ client with live := client.live.map (·.enqueue message) }, .ok none) := by
  have hsender : message.message.channelId ∈ client.senders :=
    (hbacked.senders _).mpr (.inr hlive)
  have hwaiting : ¬ (client.buffer? message.message.channelId).isSome :=
    fun hwaiting ↦ hbacked.exclusive _ hwaiting hlive
  rw [hbacked.runReceiveMessage_deliver (Or.inr hlive), ensureSender_of_mem hsender,
    Effect.bind_def, Effect.andThen, MeshNetworkClient.deliver, if_neg hwaiting, if_pos hlive]
  rfl

/-- A message that arrives, with the transport at that moment. -/
structure Arrival where
  transport : Transport
  message : MpcPeerMessage

/-- The client after a message, whatever its handling returns. -/
def receive (client : MeshNetworkClient lru) (arrival : Arrival) : MeshNetworkClient lru :=
  (runReceiveMessage arrival.transport arrival.message client).1

/-- Handling the message does not panic. -/
def Handled (client : MeshNetworkClient lru) (arrival : Arrival) : Prop :=
  ¬ (runReceiveMessage arrival.transport arrival.message).Panics client

/-- A channel that is alive receives all its messages, and handling them does not panic. -/
theorem Backed.receive_live (hbacked : client.Backed) (hlive : channel ∈ client.live)
    {arrivals : List Arrival}
    (hids : ∀ arrival ∈ arrivals, arrival.message.message.channelId = channel.channelId) :
    StepsMeet receive Handled client arrivals ∧
      channel.enqueueAll (arrivals.map Arrival.message) ∈ (run receive client arrivals).live := by
  induction arrivals generalizing client channel with
  | nil => exact ⟨trivial, by simpa [NetworkTaskChannel.enqueueAll] using hlive⟩
  | cons arrival _ ih =>
    rw [List.forall_mem_cons] at hids
    have hliveIds : arrival.message.message.channelId ∈ client.liveIds := by
      rw [hids.1]
      exact List.mem_map_of_mem hlive
    have hreceive := hbacked.runReceiveMessage_live arrival.transport hliveIds
    have hhandled : Handled client arrival := by
      rw [Handled, Effect.Panics, hreceive]
      simp
    have hafter : channel.enqueue arrival.message ∈ (client.receive arrival).live := by
      rw [receive, hreceive]
      exact List.mem_map_of_mem hlive
    have hrest := ih (hbacked.runReceiveMessage hhandled) hafter (by simpa using hids.2)
    refine ⟨⟨hhandled, hrest.1⟩, ?_⟩
    rw [List.map_cons, channel.enqueueAll_cons _ hids.1]
    exact hrest.2

/-- Whatever messages arrive for a channel that is alive, they are handed to it without a panic. The
loop of its protocol does not panic on them either, exactly when on these messages no poke panics,
private messages are for participants, and the protocol is told of messages of participants only. -/
theorem messages_of_live_channel_never_panic_iff (hreachable : client.Reachable)
    (hlive : channel ∈ client.live) {arrivals : List Arrival}
    (hids : ∀ arrival ∈ arrivals, arrival.message.message.channelId = channel.channelId)
    {Output : Type} (protocol : Protocol Output) :
    (StepsMeet receive Handled client arrivals ∧
      channel.enqueueAll (arrivals.map Arrival.message) ∈ (run receive client arrivals).live ∧
      ∀ rounds, runProtocol rounds (channel.enqueueAll (arrivals.map Arrival.message)) protocol ≠
        .panicked) ↔
    ∀ moment, Relation.ReflTransGen (Moment.Step channel.isLeader)
        (Moment.first protocol (channel.receiver ++ arrivals.map Arrival.message)) moment →
      moment.Sound channel.isLeader channel.participants := by
  have hdelivered := hreachable.backed.receive_live hlive hids
  have hloop := Moment.runProtocol_ne_panicked_iff
    (channel.enqueueAll (arrivals.map Arrival.message)) protocol
  constructor
  · intro hnever
    exact hloop.mp hnever.2.2
  · intro hsound
    exact ⟨hdelivered.1, hdelivered.2, hloop.mpr hsound⟩

end MeshNetworkClient

/-! ### A peer that is not a participant -/

namespace FourPeers

open MeshNetworkClient

/-- Node 2 of the nodes 1 to 4, which are all connected. -/
def transport : Transport where
  myParticipantId := 2
  connectivities := fun id ↦ if id = 1 ∨ id = 3 ∨ id = 4 then some ⟨1, 1⟩ else none

def channelId : ChannelId := UniqueId.new 1 1700000000 0

/-- A message for the channel. -/
def arrival (sender : ParticipantId) (kind : MpcMessageKind) : Arrival where
  transport
  message := { sender, message := { channelId, kind } }

/-- Node 1 starts a task for the nodes 1, 2 and 3. -/
def startMessage : MpcStartMessage where
  taskId := .eddsaTaskId (.signature [7])
  participants := [1, 2, 3]

def client : MeshNetworkClient boundedLru := receive new (arrival 1 (.start startMessage))

/-- The channel that node 1 has started. -/
def channel : NetworkTaskChannel :=
  channelOf transport (arrival 1 (.start startMessage)).message startMessage
    [(1, ⟨1, 1⟩), (3, ⟨1, 1⟩)] []

theorem client_reachable : client.Reachable := by
  refine Reachable.receive Reachable.new ?_
  rw [backed_new.runReceiveMessage_panics_iff]
  rintro ⟨_, hkind, -, hunknown⟩
  cases hkind
  exact hunknown (by decide +kernel)

theorem channel_mem_live : channel ∈ client.live := by decide +kernel

/-- Messages of participants, and the abort that ends the task before the message of node 4. -/
def answers : List Arrival :=
  [arrival 3 (.computation [[1], [2]]), arrival 1 (.abort "timeout"), arrival 4 (.computation [])]

/-- A protocol that answers each message to its sender. -/
def echo : Protocol Unit where
  State := Option ParticipantId
  start := none
  poke := fun
    | some sender => (none, .ok (.sendPrivate sender [1]))
    | none => (none, .ok .wait)
  message := fun _ sender _ ↦ (some sender, .ok ())

/-- The moments of the protocol on these messages. -/
def moments : List (Moment echo) :=
  let messages := answers.map Arrival.message
  [⟨messages, none, []⟩, ⟨messages.tail, some 3, []⟩, ⟨messages.tail, none, [3]⟩]

theorem moments_step {moment next} (hmoment : moment ∈ moments) (hstep : moment.Step false next) :
    next ∈ moments := by
  fin_cases hmoment <;> rcases hstep with hpoke | hpoke | ⟨hpoke, hnext, hinform⟩ <;> cases hpoke
  · cases hnext
    cases hinform
    exact List.mem_cons_of_mem _ List.mem_cons_self
  · exact List.mem_cons_of_mem _ (List.mem_cons_of_mem _ List.mem_cons_self)
  · cases hnext

theorem answers_never_panic :
    StepsMeet receive Handled client answers ∧
      channel.enqueueAll (answers.map Arrival.message) ∈ (run receive client answers).live ∧
      ∀ rounds, runProtocol rounds (channel.enqueueAll (answers.map Arrival.message)) echo ≠
        .panicked := by
  refine (messages_of_live_channel_never_panic_iff client_reachable channel_mem_live
    (by decide +kernel) echo).mpr fun moment hreaches ↦ ?_
  have hmoment : moment ∈ moments := by
    induction hreaches with
    | refl => exact List.mem_cons_self
    | tail _ hstep hmoment => exact moments_step hmoment hstep
  fin_cases hmoment
  · exact ⟨nofun, nofun, fun _ ↦ nofun, fun _ received rest hnext ↦ by cases hnext; decide⟩
  · exact ⟨nofun, nofun, nofun, nofun⟩
  · exact ⟨nofun, nofun, fun _ ↦ List.forall_mem_singleton.mpr (by decide), fun _ _ _ ↦ nofun⟩

/-- A computation message of node 4. -/
def stray : Arrival := arrival 4 (.computation [])

/-- Node 4 is a peer, but not a participant: its message ends the node with a panic, while the
protocol waits. -/
theorem message_of_other_peer_panics :
    client.Reachable ∧ channel ∈ client.live ∧ transport.connectivities 4 ≠ none ∧
      Handled client stray ∧ channel.enqueueAll [stray.message] ∈ (receive client stray).live ∧
      runProtocol (fun _ ↦ ⟨1, fun _ ↦ none⟩) (channel.enqueueAll [stray.message]) echo =
        .panicked := by
  have hids : ∀ arrival ∈ [stray], arrival.message.message.channelId = channel.channelId := by
    decide +kernel
  have hdelivered := client_reachable.backed.receive_live channel_mem_live hids
  exact ⟨client_reachable, channel_mem_live, by decide, hdelivered.1.1, hdelivered.2, rfl⟩

end FourPeers

end NearMpc.Node
