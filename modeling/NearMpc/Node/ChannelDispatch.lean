import NearMpc.Node.Network

/-!
# Dispatch of messages to channels

Runs of the message dispatch of one node: the receive loop, the tasks that create channels as
leaders, the tasks that receive from a channel, and the end of channels, in any order. Follows
`generate_unique_channel_id`, `new_channel_for_task`, `sender_for`, `run_receive_message` and the
destructor of `NetworkTaskChannel` in `network.rs`, and `pick_new_after` in `primitives.rs`.

The receive loop handles one message at a time, in two steps: it looks up the sender of the channel
under a lock, and sends the message after the lock is released. Other tasks may act in between. A
sender that was looked up belongs to one buffer; once the channel has lost its sender, by eviction
or because it was dropped, that buffer is gone and sending fails.

`Ledger` records what happens to each channel id until its buffer is evicted or its channel is
dropped, and only then forgets. `Exact` is the invariant: the messages that a channel has received,
those in its buffer and the one on its way are the messages that arrived for it, in order, and no
message is on record for an id without a sender.
-/

set_option autoImplicit false

namespace NearMpc.Node

open Library Library.Outcome MeshNetworkClient NetworkTaskChannel

/-! ### Fresh ids -/

namespace UniqueId

/-- The next id of the same participant at the given time. A counter that overflows panics. -/
def pickNewAfter (self : UniqueId) (now : UInt64) : NodeResult UniqueId :=
  if self.timestamp < now then .ok (new self.participantId now 0)
  else do
    let counter ← unwrap (checkedAdd self.counter 1)
    return new self.participantId self.timestamp counter

/-- An id orders by its participant, then its timestamp, then its counter. -/
theorem toNat_raw_eq (self : UniqueId) :
    self.raw.toNat =
      self.participantId.toNat * 2 ^ 96 + self.timestamp.toNat * 2 ^ 32 + self.counter.toNat := by
  have hlt := self.raw.isLt
  have hmask : ∀ width value : ℕ, value &&& (2 ^ width - 1) = value % 2 ^ width :=
    fun width value ↦ Nat.and_two_pow_sub_one_eq_mod value width
  have hparticipant : self.participantId.toNat = self.raw.toNat / 2 ^ 96 := by
    simp only [participantId, UInt32.toNat_ofBitVec, BitVec.toNat_setWidth,
      BitVec.toNat_ushiftRight, Nat.shiftRight_eq_div_pow]
    omega
  have htimestamp : self.timestamp.toNat = self.raw.toNat / 2 ^ 32 % 2 ^ 64 := by
    have hones : ((1#128 <<< 64) - 1#128).toNat = 2 ^ 64 - 1 := by decide
    simp only [timestamp, UInt64.toNat_ofBitVec, BitVec.toNat_setWidth, BitVec.toNat_and,
      BitVec.toNat_ushiftRight, Nat.shiftRight_eq_div_pow, hones, hmask]
    omega
  have hcounter : self.counter.toNat = self.raw.toNat % 2 ^ 32 := by
    have hones : ((1#128 <<< 32) - 1#128).toNat = 2 ^ 32 - 1 := by decide
    simp only [counter, UInt32.toNat_ofBitVec, BitVec.toNat_setWidth, BitVec.toNat_and, hones,
      hmask]
    omega
  rw [hparticipant, htimestamp, hcounter]
  omega

theorem toNat_raw_new (participantId : ParticipantId) (timestamp : UInt64) (counter : UInt32) :
    (new participantId timestamp counter).raw.toNat =
      participantId.toNat * 2 ^ 96 + timestamp.toNat * 2 ^ 32 + counter.toNat := by
  rw [toNat_raw_eq, participantId_new, timestamp_new, counter_new]

/-- A new id is of the same participant and larger. -/
theorem pickNewAfter_spec {self next : UniqueId} {now : UInt64}
    (hok : self.pickNewAfter now = .ok next) :
    next.participantId = self.participantId ∧ self.raw.toNat < next.raw.toNat := by
  have hself := self.toNat_raw_eq
  have hcounter := self.counter.toNat_lt
  unfold pickNewAfter at hok
  split at hok
  next hlater =>
    cases hok
    refine ⟨participantId_new _ _ _, ?_⟩
    have hlt := UInt64.lt_iff_toNat_lt.mp hlater
    rw [toNat_raw_new]
    omega
  next =>
    by_cases hroom : self.counter.toNat + 1 < 2 ^ 32
    · have hone : (1 : UInt32).toNat = 1 := rfl
      have hadd : (self.counter + 1).toNat = self.counter.toNat + 1 := by
        rw [UInt32.toNat_add, hone]
        exact Nat.mod_eq_of_lt hroom
      simp only [checkedAdd, hone, hroom, if_true, unwrap, ok_bind, pure_eq, ok.injEq] at hok
      subst hok
      refine ⟨participantId_new _ _ _, ?_⟩
      rw [toNat_raw_new, hadd]
      omega
    · have hfull : checkedAdd self.counter 1 = none := if_neg hroom
      rw [hfull] at hok
      cases hok

end UniqueId

/-! ### Looking up a sender -/

namespace MeshNetworkClient

variable {lru : LruCache ChannelId (List MpcPeerMessage)} {client : MeshNetworkClient lru}
  {transport : Transport} {start : MpcStartMessage} {channelId : ChannelId}
  {originator : ParticipantId}

theorem senderFor_none :
    senderFor transport channelId none originator client =
      (client.ensureSender channelId, .ok .sender) := by
  simp [senderFor, Effect.bind_def, Effect.andThen]

theorem Backed.senderFor_live (hbacked : client.Backed) (hlive : channelId ∈ client.liveIds) :
    senderFor transport channelId (some start) originator client =
      (client.ensureSender channelId, .ok .sender) := by
  have hget := hbacked.buffer?_of_live hlive
  have hpop := lru.pop_fst_of_none _ _ hget
  simp [senderFor, popWaiting, lru.pop_snd, hget, hpop, Effect.bind_def, Effect.andThen,
    -live_ensureSender]

/-- The first start message takes the buffer of its channel, unless it panics. -/
theorem Backed.senderFor_start (hbacked : client.Backed) {message}
    (hlive : message.message.channelId ∉ client.liveIds) :
    (∃ connectionVersions receiver,
      (client.ensureSender message.message.channelId).buffer? message.message.channelId =
        some receiver ∧
      senderFor transport message.message.channelId (some start) message.sender client =
        (client.started message.message.channelId,
          .ok (.newChannel (channelOf transport message start connectionVersions receiver)))) ∨
    ∃ broken, senderFor transport message.message.channelId (some start) message.sender client =
      (broken, .panicked) := by
  obtain ⟨receiver, hget⟩ := hbacked.buffer?_of_not_live hlive
  rcases transport.connectionVersionsOf_cases (transport.others start.participants) with
    ⟨connectionVersions, hok, -, -⟩ | ⟨hpanic, -⟩
  · refine .inl ⟨connectionVersions, receiver, hget, ?_⟩
    simp [senderFor, popWaiting, lru.pop_snd, hget, hok, Effect.bind_def, Effect.andThen,
      MeshNetworkClient.started, channelOf]
  · refine .inr ⟨{ client.started message.message.channelId with live := client.live }, ?_⟩
    simp [senderFor, popWaiting, lru.pop_snd, hget, hpanic, Effect.bind_def, Effect.andThen,
      MeshNetworkClient.started]

end MeshNetworkClient

/-! ### The dispatcher -/

variable {lru : LruCache ChannelId (List MpcPeerMessage)}

/-- The state of the dispatch. -/
structure Dispatcher (lru : LruCache ChannelId (List MpcPeerMessage)) where
  client : MeshNetworkClient lru
  lastId : UniqueId
  /-- The message whose sender the receive loop has looked up, and whether that sender still is the
  one of its channel. -/
  inFlight : Option (MpcPeerMessage × Bool)

inductive DispatchEvent where
  /-- The receive loop takes a message from the transport and looks up its sender. -/
  | receive (connectivities : ParticipantId → Option ConnectionVersion) (message : MpcPeerMessage)
  /-- The receive loop sends the message to the buffer of its channel. -/
  | send
  /-- A task creates a channel as its leader. -/
  | create (connectivities : ParticipantId → Option ConnectionVersion) (now : UInt64)
      (start : MpcStartMessage)
  /-- A task receives the next message of its channel. -/
  | take (channelId : ChannelId)
  /-- A channel is dropped. -/
  | drop (channelId : ChannelId)

variable (channelId : ChannelId)

/-- The channel without its next message, if it is the given one. -/
def NetworkTaskChannel.dequeue (channel : NetworkTaskChannel) : NetworkTaskChannel :=
  if channel.channelId = channelId then { channel with receiver := channel.receiver.tail }
  else channel

/-- The next message of the channel, if it is alive and has one. -/
def MeshNetworkClient.next (client : MeshNetworkClient lru) : Option MpcPeerMessage :=
  (client.live.find? (·.channelId = channelId)).bind (·.receiver.head?)

namespace Dispatcher

/-- A dispatcher that has handled nothing. -/
def new (lastId : UniqueId) : Dispatcher lru where
  client := .new
  lastId
  inFlight := none

/-- The dispatcher with another state of the channels. A sender that the receive loop holds is of no
more use once its channel has lost it. -/
def withClient (self : Dispatcher lru) (client : MeshNetworkClient lru) : Dispatcher lru :=
  { self with
    client
    inFlight := self.inFlight.map fun held ↦
      (held.1, held.2 && decide (held.1.message.channelId ∈ client.senders)) }

/-- Creates a channel for a task. The result is the channel, which is alive from then on. -/
def newChannelForTask (transport : Transport) (now : UInt64) (start : MpcStartMessage) :
    Effect (Dispatcher lru) NodeError NetworkTaskChannel := fun self ↦
  match self.lastId.pickNewAfter now with
  | .err failure => (self, .err failure)
  | .panicked => (self, .panicked)
  | .ok channelId =>
      let self := { self with lastId := channelId }
      match senderFor transport channelId (some start)
          transport.myParticipantId self.client with
      | (client, .ok (.newChannel channel)) =>
          (self.withClient { client with live := channel :: client.live }, .ok channel)
      | (client, .ok .sender) => (self.withClient client, .err "Channel already exists")
      | (client, .err failure) => (self.withClient client, .err failure)
      | (client, .panicked) => (self.withClient client, .panicked)

variable (me : ParticipantId)

/-- One event. An event that is not possible in a state leaves it, and a panic ends the run. -/
def step (self : Dispatcher lru) : DispatchEvent → NodeResult (Dispatcher lru)
  | .receive connectivities message =>
      if self.inFlight.isSome then .ok self
      else
        match senderFor { myParticipantId := me, connectivities }
            message.message.channelId (startOf message.message.kind)
            message.sender self.client with
        | (client, .ok .sender) => .ok { self with client, inFlight := some (message, true) }
        | (client, .ok (.newChannel channel)) =>
            .ok { self with client := { client with live := channel :: client.live } }
        | (client, .err _) => .ok { self with client }
        | (_, .panicked) => .panicked
  | .send =>
      match self.inFlight with
      | none => .ok self
      | some (message, true) =>
          .ok { self with
            client := (deliver message self.client).1
            inFlight := none }
      | some (_, false) => .ok { self with inFlight := none }
  | .create connectivities now start =>
      match newChannelForTask { myParticipantId := me, connectivities } now start self with
      | (_, .panicked) => .panicked
      | (after, _) => .ok after
  | .take channelId =>
      .ok { self with
        client := { self.client with
          live := self.client.live.map (dequeue channelId) } }
  | .drop channelId =>
      if channelId ∈ self.client.liveIds then
        .ok (self.withClient (self.client.dropChannel channelId))
      else .ok self

/-- The message on its way to a channel. -/
def onTheWay (self : Dispatcher lru) (channelId : ChannelId) : List MpcPeerMessage :=
  match self.inFlight with
  | some (message, true) => if message.message.channelId = channelId then [message] else []
  | _ => []

end Dispatcher

/-! ### What happened to a channel -/

/-- For every channel id, since its buffer was last evicted or its channel dropped: the messages
that arrived for it, those that its task received, and the message that started it, with the peer
that sent it. -/
structure Ledger where
  arrived : ChannelId → List MpcPeerMessage
  received : ChannelId → List MpcPeerMessage
  started : ChannelId → Option (ParticipantId × MpcStartMessage)

namespace Ledger

def empty : Ledger where
  arrived := fun _ ↦ []
  received := fun _ ↦ []
  started := fun _ ↦ none

variable (self : Ledger)

/-- The record of a channel ends when its buffer is evicted, and when it is dropped. -/
def forget (lost : Option ChannelId) : Ledger where
  arrived := fun id ↦ if lost = some id then [] else self.arrived id
  received := fun id ↦ if lost = some id then [] else self.received id
  started := fun id ↦ if lost = some id then none else self.started id

def arrive (message : MpcPeerMessage) : Ledger :=
  { self with
    arrived := Function.update self.arrived message.message.channelId
      (self.arrived message.message.channelId ++ [message]) }

variable (channelId : ChannelId)

def receive (message : MpcPeerMessage) : Ledger :=
  { self with
    received := Function.update self.received channelId (self.received channelId ++ [message]) }

def start (leader : ParticipantId) (message : MpcStartMessage) : Ledger :=
  { self with started := Function.update self.started channelId (some (leader, message)) }

/-- The record of an event. A start message for a channel that is not alive starts it; every other
message is one for the channel to receive. -/
def record (me : ParticipantId) (before : Dispatcher lru) (event : DispatchEvent)
    (ledger : Ledger) : Ledger :=
  match event with
  | .receive _ message =>
      if before.inFlight.isSome then ledger
      else
        let kept := ledger.forget (before.client.evictedFor message.message.channelId)
        match startOf message.message.kind with
        | none => kept.arrive message
        | some start =>
            if message.message.channelId ∈ before.client.liveIds then kept.arrive message
            else kept.start message.message.channelId message.sender start
  | .create _ now start =>
      match before.lastId.pickNewAfter now with
      | .ok channelId =>
          let kept := ledger.forget (before.client.evictedFor channelId)
          if channelId ∈ before.client.liveIds then kept else kept.start channelId me start
      | _ => ledger
  | .take channelId =>
      match before.client.next channelId with
      | some message => ledger.receive channelId message
      | none => ledger
  | .send => ledger
  | .drop channelId =>
      if channelId ∈ before.client.liveIds then ledger.forget (some channelId) else ledger

end Ledger

/-- A sequence of events with its record; a panic ends it. -/
def dispatchRun (me : ParticipantId) :
    Dispatcher lru × Ledger → List DispatchEvent → NodeResult (Dispatcher lru × Ledger)
  | state, [] => .ok state
  | (dispatcher, ledger), event :: rest => do
      let after ← dispatcher.step me event
      dispatchRun me (after, ledger.record me dispatcher event) rest

/-- The state of the dispatch agrees with what happened: every id with a sender either waits for its
start message or has one channel that is alive, and the messages that arrived for it are those its
task received, those in its buffer and the one on its way, in this order. -/
structure Exact (dispatcher : Dispatcher lru) (ledger : Ledger) : Prop where
  backed : dispatcher.client.Backed
  once : dispatcher.client.liveIds.Nodup
  held : ∀ message, dispatcher.inFlight = some (message, true) →
    message.message.channelId ∈ dispatcher.client.senders
  waiting : ∀ id buffer, dispatcher.client.buffer? id = some buffer →
    ledger.received id = [] ∧ ledger.arrived id = buffer ++ dispatcher.onTheWay id
  live : ∀ channel ∈ dispatcher.client.live,
    ledger.arrived channel.channelId = ledger.received channel.channelId ++ channel.receiver ++
      dispatcher.onTheWay channel.channelId
  started : ∀ channel ∈ dispatcher.client.live, ∃ start,
    ledger.started channel.channelId = some (channel.leader, start) ∧
      channel.taskId = start.taskId ∧ channel.participants = start.participants
  absent : ∀ id, id ∉ dispatcher.client.senders → ledger.arrived id = [] ∧ ledger.received id = []

theorem exact_new (lastId : UniqueId) : Exact (.new lastId : Dispatcher lru) Ledger.empty where
  backed := MeshNetworkClient.backed_new
  once := List.nodup_nil
  held := by simp [Dispatcher.new]
  waiting := fun id buffer hbuffer ↦ by
    rw [Dispatcher.new, MeshNetworkClient.buffer?_new] at hbuffer
    cases hbuffer
  live := by simp [Dispatcher.new, MeshNetworkClient.new]
  started := by simp [Dispatcher.new, MeshNetworkClient.new]
  absent := fun _ _ ↦ ⟨rfl, rfl⟩

variable {dispatcher : Dispatcher lru} {ledger : Ledger} {client : MeshNetworkClient lru}

theorem MeshNetworkClient.Backed.mem_senders_of_waiting (hbacked : client.Backed) {id buffer}
    (hbuffer : client.buffer? id = some buffer) : id ∈ client.senders :=
  (hbacked.senders id).mpr (.inl (Option.isSome_of_eq_some hbuffer))

variable {channel : NetworkTaskChannel}

theorem MeshNetworkClient.Backed.mem_senders_of_live (hbacked : client.Backed)
    (hchannel : channel ∈ client.live) : channel.channelId ∈ client.senders :=
  (hbacked.senders channel.channelId).mpr (.inr (List.mem_map_of_mem hchannel))

/-- Nothing is on its way to an id without a sender. -/
theorem Exact.onTheWay_of_notMem (hexact : Exact dispatcher ledger) {id}
    (hnew : id ∉ dispatcher.client.senders) : dispatcher.onTheWay id = [] := by
  unfold Dispatcher.onTheWay
  split
  next message hmessage =>
    refine if_neg fun hid ↦ hnew ?_
    rw [← hid]
    exact hexact.held message hmessage
  · rfl

theorem Dispatcher.onTheWay_withClient {channelId} (hsender : channelId ∈ client.senders) :
    (dispatcher.withClient client).onTheWay channelId = dispatcher.onTheWay channelId := by
  rcases hinFlight : dispatcher.inFlight with _ | ⟨message, valid⟩
  · simp [onTheWay, withClient, hinFlight]
  · cases valid with
    | false => simp [onTheWay, withClient, hinFlight]
    | true =>
      by_cases hid : message.message.channelId = channelId
      · subst hid
        simp [onTheWay, withClient, hinFlight, hsender]
      · by_cases hother : message.message.channelId ∈ client.senders
        · simp [onTheWay, withClient, hinFlight, hother]
        · simp [onTheWay, withClient, hinFlight, hother, hid]

/-- Channels may get senders, and one may lose its sender: a new one starts with an empty buffer,
and the record of the lost one ends. -/
theorem Exact.withClient (hexact : Exact dispatcher ledger) (hbacked : client.Backed)
    (honce : client.liveIds.Nodup) {lost} (hkept : ∀ id ∈ client.senders, lost ≠ some id)
    (hsenders : ∀ id ∈ dispatcher.client.senders, lost ≠ some id → id ∈ client.senders)
    (hwaiting : ∀ id buffer, client.buffer? id = some buffer →
      dispatcher.client.buffer? id = some buffer ∨ id ∉ dispatcher.client.senders ∧ buffer = [])
    (hlive : ∀ channel ∈ client.live, channel ∈ dispatcher.client.live) :
    Exact (dispatcher.withClient client) (ledger.forget lost) where
  backed := hbacked
  once := honce
  held := by
    intro _ hmessage
    simp only [Dispatcher.withClient, Option.map_eq_some_iff, Prod.mk.injEq, Bool.and_eq_true,
      decide_eq_true_eq] at hmessage
    obtain ⟨_, -, rfl, -, hsender⟩ := hmessage
    exact hsender
  waiting := by
    intro id buffer hbuffer
    have hsender := hbacked.mem_senders_of_waiting hbuffer
    simp only [Ledger.forget, if_neg (hkept id hsender)]
    rw [Dispatcher.onTheWay_withClient hsender]
    rcases hwaiting id buffer hbuffer with hold | ⟨hnew, rfl⟩
    · exact hexact.waiting id buffer hold
    · obtain ⟨harrived, hreceived⟩ := hexact.absent id hnew
      rw [harrived, hreceived, hexact.onTheWay_of_notMem hnew]
      exact ⟨rfl, rfl⟩
  live := by
    intro channel hchannel
    have hsender := hbacked.mem_senders_of_live hchannel
    simp only [Ledger.forget, if_neg (hkept _ hsender)]
    rw [Dispatcher.onTheWay_withClient hsender]
    exact hexact.live channel (hlive channel hchannel)
  started := by
    intro channel hchannel
    have hsender := hbacked.mem_senders_of_live hchannel
    simp only [Ledger.forget, if_neg (hkept _ hsender)]
    exact hexact.started channel (hlive channel hchannel)
  absent := by
    intro id hid
    by_cases hlost : lost = some id
    · simp [Ledger.forget, hlost]
    · simp only [Ledger.forget, if_neg hlost]
      exact hexact.absent id fun hsender ↦ hid (hsenders id hsender hlost)

/-! ### Events -/

theorem Exact.ensureSender (hexact : Exact dispatcher ledger) (channelId : ChannelId) :
    Exact (dispatcher.withClient (dispatcher.client.ensureSender channelId))
      (ledger.forget (dispatcher.client.evictedFor channelId)) := by
  have hliveIds : (dispatcher.client.ensureSender channelId).liveIds =
      dispatcher.client.liveIds := by
    rw [liveIds, live_ensureSender, liveIds]
  have hsenders := hexact.backed.mem_senders_ensureSender channelId
  refine hexact.withClient (hexact.backed.ensureSender channelId) ?_ ?_ ?_ ?_ ?_
  · rw [hliveIds]
    exact hexact.once
  · intro id hid
    rcases (hsenders id).mp hid with rfl | ⟨-, hkept⟩
    · exact fun hevicted ↦ (hexact.backed.buffer?_evictedFor hevicted).2 rfl
    · exact hkept
  · exact fun id hid hkept ↦ (hsenders id).mpr (.inr ⟨hid, hkept⟩)
  · intro id buffer hbuffer
    rcases (hexact.backed.buffer?_ensureSender channelId id buffer).mp hbuffer with
      ⟨hnew, rfl, hempty⟩ | ⟨hold, -⟩
    · exact .inr ⟨hnew, hempty⟩
    · exact .inl hold
  · intro _ hchannel
    rwa [live_ensureSender] at hchannel

variable {message : MpcPeerMessage}

section

variable (hexact : Exact dispatcher ledger)
include hexact

/-- A message is on its way once its sender has been looked up. -/
theorem Exact.arrive (hidle : dispatcher.inFlight = none)
    (hsender : message.message.channelId ∈ dispatcher.client.senders) :
    Exact { dispatcher with inFlight := some (message, true) } (ledger.arrive message) := by
  have hnone : ∀ id, dispatcher.onTheWay id = [] := by
    intro _
    rw [Dispatcher.onTheWay, hidle]
  have hway : ∀ id, (Dispatcher.onTheWay { dispatcher with inFlight := some (message, true) } id) =
      if message.message.channelId = id then [message] else [] := fun _ ↦ rfl
  have harrived : ∀ id, (ledger.arrive message).arrived id =
      ledger.arrived id ++ if message.message.channelId = id then [message] else [] := by
    intro id
    by_cases hid : message.message.channelId = id
    · subst hid
      simp [Ledger.arrive]
    · have hne : id ≠ message.message.channelId := Ne.symm hid
      simp [Ledger.arrive, hid, hne]
  refine ⟨hexact.backed, hexact.once, ?_, ?_, ?_, hexact.started, ?_⟩
  · rintro _ ⟨⟩
    exact hsender
  · intro id buffer hbuffer
    obtain ⟨hreceived, hbuffered⟩ := hexact.waiting id buffer hbuffer
    rw [hnone, List.append_nil] at hbuffered
    refine ⟨hreceived, ?_⟩
    rw [harrived, hway, hbuffered]
  · intro channel hchannel
    have hbuffered := hexact.live channel hchannel
    rw [hnone, List.append_nil] at hbuffered
    rw [harrived, hway, hbuffered]
    rfl
  · intro id hid
    have hne : message.message.channelId ≠ id := fun heq ↦ hid (heq ▸ hsender)
    rw [harrived, if_neg hne, List.append_nil]
    exact hexact.absent id hid

/-- A start message turns the buffer of a channel into the channel. -/
theorem Exact.start (hwaiting : dispatcher.client.buffer? channel.channelId = some channel.receiver)
    {start} (htask : channel.taskId = start.taskId)
    (hlisted : channel.participants = start.participants) :
    Exact { dispatcher with
        client := { dispatcher.client with
          channelsWaitingForStart :=
            (lru.pop dispatcher.client.channelsWaitingForStart channel.channelId).1
          live := channel :: dispatcher.client.live } }
      (ledger.start channel.channelId channel.leader start) := by
  have hnotLive := hexact.backed.exclusive channel.channelId (Option.isSome_of_eq_some hwaiting)
  have hsender := hexact.backed.mem_senders_of_waiting hwaiting
  have hother : ∀ other ∈ dispatcher.client.live, other.channelId ≠ channel.channelId :=
    fun other hmem hid ↦ hnotLive (hid ▸ List.mem_map_of_mem hmem)
  refine ⟨?_, ?_, hexact.held, ?_, ?_, ?_, hexact.absent⟩
  · have hstarted := hexact.backed.started channel
    rwa [MeshNetworkClient.started, MeshNetworkClient.ensureSender_of_mem hsender] at hstarted
  · exact List.nodup_cons.mpr ⟨hnotLive, hexact.once⟩
  · exact fun id buffer hbuffer ↦ hexact.waiting id buffer ((lru.get?_pop _ _ _ _).mp hbuffer).2
  · intro other hmem
    rcases List.mem_cons.mp hmem with rfl | hmem
    · obtain ⟨hreceived, hbuffered⟩ := hexact.waiting _ _ hwaiting
      simp only [Ledger.start]
      rw [hreceived, List.nil_append]
      exact hbuffered
    · exact hexact.live other hmem
  · intro other hmem
    rcases List.mem_cons.mp hmem with rfl | hmem
    · exact ⟨start, by simp [Ledger.start], htask, hlisted⟩
    · obtain ⟨first, hstarted, hfields⟩ := hexact.started other hmem
      refine ⟨first, ?_, hfields⟩
      simpa [Ledger.start, hother other hmem] using hstarted

/-- Looking up a sender with the first start message of a channel brings the channel to life. -/
theorem Exact.senderFor_start (transport : Transport) {message} (start : MpcStartMessage)
    (connectionVersions : List (ParticipantId × ConnectionVersion)) {receiver}
    (hget : (dispatcher.client.ensureSender message.message.channelId).buffer?
      message.message.channelId = some receiver) :
    Exact (dispatcher.withClient { dispatcher.client.started message.message.channelId with
        live := channelOf transport message start connectionVersions receiver ::
          (dispatcher.client.started message.message.channelId).live })
      ((ledger.forget (dispatcher.client.evictedFor message.message.channelId)).start
        message.message.channelId message.sender start) := by
  generalize hchannel :
    channelOf transport message start connectionVersions receiver = channel
  have hid : channel.channelId = message.message.channelId := by rw [← hchannel]; rfl
  have hleader : channel.leader = message.sender := by rw [← hchannel]; rfl
  have hwaiting : (dispatcher.client.ensureSender message.message.channelId).buffer?
      channel.channelId = some channel.receiver := by
    rw [← hchannel]
    exact hget
  have hstart := (hexact.ensureSender message.message.channelId).start hwaiting
    (by rw [← hchannel]; rfl : channel.taskId = start.taskId)
    (by rw [← hchannel]; rfl)
  rw [hid, hleader] at hstart
  exact hstart

/-- Sending moves the message on its way to the buffer of its channel. -/
theorem Exact.send (hmessage : dispatcher.inFlight = some (message, true)) :
    Exact { dispatcher with
      client := (deliver message dispatcher.client).1
      inFlight := none } ledger := by
  have hway : ∀ id, dispatcher.onTheWay id =
      if message.message.channelId = id then [message] else [] := by
    intro _
    rw [Dispatcher.onTheWay, hmessage]
  have hsender := hexact.held message hmessage
  have hbacked := hexact.backed.deliver message
  have hliveIds := liveIds_deliver dispatcher.client message
  have honce : (deliver message dispatcher.client).1.liveIds.Nodup := by
    rw [hliveIds]
    exact hexact.once
  refine ⟨hbacked, honce, by simp, ?_, ?_, ?_, ?_⟩
  all_goals unfold deliver
  · intro id buffer hbuffer
    simp only [Dispatcher.onTheWay, List.append_nil]
    split_ifs at hbuffer with hwaiting hlive
    · by_cases hid : id = message.message.channelId
      · subst hid
        rw [buffer?, lru.get?_adjust_self, Option.map_eq_some_iff] at hbuffer
        obtain ⟨old, hold, rfl⟩ := hbuffer
        have hbuffered := hexact.waiting _ old hold
        rwa [hway, if_pos rfl] at hbuffered
      · rw [buffer?, lru.get?_adjust_of_ne _ _ _ _ hid] at hbuffer
        have hbuffered := hexact.waiting id buffer hbuffer
        rwa [hway, if_neg (Ne.symm hid), List.append_nil] at hbuffered
    all_goals
      have hbuffered := hexact.waiting id buffer hbuffer
      have hid : message.message.channelId ≠ id :=
        fun heq ↦ hwaiting (heq ▸ Option.isSome_of_eq_some hbuffer)
      rwa [hway, if_neg hid, List.append_nil] at hbuffered
  · intro channel hchannel
    simp only [Dispatcher.onTheWay, List.append_nil]
    split_ifs at hchannel with hwaiting hlive
    · have hbuffered := hexact.live channel hchannel
      have hid : message.message.channelId ≠ channel.channelId := fun heq ↦
        hexact.backed.exclusive _ hwaiting (heq ▸ List.mem_map_of_mem hchannel)
      rwa [hway, if_neg hid, List.append_nil] at hbuffered
    · obtain ⟨old, hold, rfl⟩ := List.mem_map.mp hchannel
      have hbuffered := hexact.live old hold
      rw [hway] at hbuffered
      unfold enqueue
      by_cases hid : old.channelId = message.message.channelId
      · rw [if_pos hid.symm] at hbuffered
        rw [if_pos hid, hbuffered, List.append_assoc]
      · rw [if_neg (Ne.symm hid), List.append_nil] at hbuffered
        rw [if_neg hid]
        exact hbuffered
    · have hneither := (hexact.backed.senders _).mp hsender
      exact absurd hneither (not_or.mpr ⟨hwaiting, hlive⟩)
  · intro channel hchannel
    split_ifs at hchannel with hwaiting hlive
    · exact hexact.started channel hchannel
    · obtain ⟨old, hold, rfl⟩ := List.mem_map.mp hchannel
      have hstarted := hexact.started old hold
      unfold enqueue
      split_ifs
      · exact hstarted
      · exact hstarted
    · exact hexact.started channel hchannel
  · intro id hid
    refine hexact.absent id ?_
    simp only at hid
    split_ifs at hid <;> exact hid

end

theorem MeshNetworkClient.next_of_mem (honce : client.liveIds.Nodup)
    (hchannel : channel ∈ client.live) :
    client.next channel.channelId = channel.receiver.head? := by
  have hfind : client.live.find? (·.channelId = channel.channelId) = some channel := by
    unfold liveIds at honce
    generalize client.live = live at honce hchannel
    induction live with
    | nil => cases hchannel
    | cons first _ ih =>
      rw [List.map_cons, List.nodup_cons] at honce
      rcases List.mem_cons.mp hchannel with rfl | hrest
      · simp
      · have hne : first.channelId ≠ channel.channelId :=
          fun heq ↦ honce.1 (heq ▸ List.mem_map_of_mem hrest)
        rw [List.find?_cons_of_neg (by simpa using hne)]
        exact ih honce.2 hrest
  rw [next, hfind, Option.bind_some]

@[simp] theorem NetworkTaskChannel.channelId_dequeue (channelId : ChannelId)
    (channel : NetworkTaskChannel) : (channel.dequeue channelId).channelId = channel.channelId := by
  unfold dequeue
  split_ifs <;> rfl

/-- Receiving moves the first message of the buffer to those received. -/
theorem Exact.take (hexact : Exact dispatcher ledger) (channelId : ChannelId) :
    Exact { dispatcher with
        client := { dispatcher.client with
          live := dispatcher.client.live.map (dequeue channelId) } }
      (match dispatcher.client.next channelId with
      | some message => ledger.receive channelId message
      | none => ledger) := by
  cases hnext : dispatcher.client.next channelId with
  | none =>
    -- there is no such channel, or its buffer is empty
    have hsame : dispatcher.client.live.map (dequeue channelId) =
        dispatcher.client.live := by
      refine (List.map_congr_left fun channel hchannel ↦ ?_).trans (List.map_id _)
      by_cases hid : channel.channelId = channelId
      · have hhead := next_of_mem hexact.once hchannel
        rw [hid, hnext, eq_comm, List.head?_eq_none_iff] at hhead
        have htail : channel.receiver.tail = channel.receiver := by rw [hhead, List.tail_nil]
        rw [dequeue, if_pos hid, htail]
        rfl
      · simp [dequeue, hid]
    rw [hsame]
    exact hexact
  | some =>
    obtain ⟨found, hfound, _⟩ := Option.bind_eq_some_iff.mp hnext
    have hmem := List.mem_of_find?_eq_some hfound
    have hid : found.channelId = channelId := by simpa using List.find?_some hfound
    have hliveId : channelId ∈ dispatcher.client.liveIds := hid ▸ List.mem_map_of_mem hmem
    have hliveIds : (dispatcher.client.live.map (NetworkTaskChannel.dequeue channelId)).map
        NetworkTaskChannel.channelId = dispatcher.client.liveIds := by
      rw [List.map_map]
      exact List.map_congr_left fun channel _ ↦ channel.channelId_dequeue channelId
    refine ⟨⟨fun id ↦ ?_, fun id hwaiting ↦ ?_⟩, ?_, hexact.held, ?_, ?_, ?_, ?_⟩
    · rw [liveIds, hliveIds]
      exact hexact.backed.senders id
    · rw [liveIds, hliveIds]
      exact hexact.backed.exclusive id hwaiting
    · rw [liveIds, hliveIds]
      exact hexact.once
    · intro id buffer hbuffer
      have hne : id ≠ channelId := fun heq ↦
        hexact.backed.exclusive id (Option.isSome_of_eq_some hbuffer) (heq ▸ hliveId)
      simpa [Ledger.receive, hne, Dispatcher.onTheWay] using hexact.waiting id buffer hbuffer
    · intro _ hchannel
      obtain ⟨old, hold, rfl⟩ := List.mem_map.mp hchannel
      have hbuffered := hexact.live old hold
      by_cases hsame : old.channelId = channelId
      · have hfirst := next_of_mem hexact.once hold
        rw [hsame, hnext] at hfirst
        obtain ⟨_, hrest⟩ := List.head?_eq_some_iff.mp hfirst.symm
        rw [hsame, hrest] at hbuffered
        simpa [dequeue, Ledger.receive, hsame, hrest, Dispatcher.onTheWay]
          using hbuffered
      · simpa [dequeue, Ledger.receive, hsame, Dispatcher.onTheWay]
          using hbuffered
    · intro _ hchannel
      obtain ⟨old, hold, rfl⟩ := List.mem_map.mp hchannel
      have hstarted := hexact.started old hold
      unfold dequeue
      split_ifs
      · exact hstarted
      · exact hstarted
    · intro id hlost
      have hne : id ≠ channelId := fun heq ↦
        hlost ((hexact.backed.senders id).mpr (.inr (heq ▸ hliveId)))
      simpa [Ledger.receive, hne] using hexact.absent id hlost

theorem Exact.drop (hexact : Exact dispatcher ledger) {channelId}
    (hlive : channelId ∈ dispatcher.client.liveIds) :
    Exact (dispatcher.withClient (dispatcher.client.dropChannel channelId))
      (ledger.forget (some channelId)) := by
  refine hexact.withClient (hexact.backed.dropChannel hlive) ?_ ?_ ?_ ?_ ?_
  · exact hexact.once.sublist (List.filter_sublist.map _)
  · rintro id hid heq
    cases heq
    exact absurd hid (Finset.notMem_erase _ _)
  · intro id hid hkept
    exact Finset.mem_erase.mpr ⟨fun heq ↦ hkept (congrArg some heq.symm), hid⟩
  · exact fun id buffer hbuffer ↦ .inl hbuffer
  · exact fun channel hchannel ↦ List.mem_of_mem_filter hchannel

theorem Dispatcher.withClient_of_idle (hidle : dispatcher.inFlight = none)
    (client : MeshNetworkClient lru) :
    dispatcher.withClient client = { dispatcher with client } := by
  rw [withClient, hidle, Option.map_none]

/-- A message that does not start its channel is on its way. -/
theorem Exact.lookUp (hexact : Exact dispatcher ledger) (hidle : dispatcher.inFlight = none)
    (message : MpcPeerMessage) :
    Exact { dispatcher with
        client := dispatcher.client.ensureSender message.message.channelId
        inFlight := some (message, true) }
      ((ledger.forget (dispatcher.client.evictedFor message.message.channelId)).arrive
        message) := by
  have hensured := hexact.ensureSender message.message.channelId
  rw [Dispatcher.withClient_of_idle hidle] at hensured
  exact hensured.arrive hidle
    (hexact.backed.mem_senders_ensureSender_self message.message.channelId)

variable {me : ParticipantId} {after : Dispatcher lru}

section

variable (hexact : Exact dispatcher ledger)
include hexact

variable {connectivities : ParticipantId → Option ConnectionVersion}

theorem Exact.step_receive
    (hstep : dispatcher.step me (.receive connectivities message) = .ok after) :
    Exact after (ledger.record me dispatcher (.receive connectivities message)) := by
  by_cases hbusy : dispatcher.inFlight.isSome = true
  · simp only [Dispatcher.step, hbusy, if_true, ok.injEq] at hstep
    subst hstep
    simp only [Ledger.record, hbusy, if_true]
    exact hexact
  · have hidle : dispatcher.inFlight = none := Option.not_isSome_iff_eq_none.mp hbusy
    simp only [Dispatcher.step, hidle, Option.isSome_none, Bool.false_eq_true, if_false] at hstep
    simp only [Ledger.record, hidle, Option.isSome_none, Bool.false_eq_true, if_false]
    cases hkind : startOf message.message.kind with
    | none =>
      rw [hkind, MeshNetworkClient.senderFor_none] at hstep
      cases hstep
      exact hexact.lookUp hidle message
    | some start =>
      rw [hkind] at hstep
      by_cases hlive : message.message.channelId ∈ dispatcher.client.liveIds
      · rw [hexact.backed.senderFor_live hlive] at hstep
        cases hstep
        simp only [hlive, if_true]
        exact hexact.lookUp hidle message
      · simp only [hlive, if_false]
        rcases hexact.backed.senderFor_start hlive with
          ⟨connectionVersions, receiver, hget, hsender⟩ | ⟨broken, hpanic⟩
        · rw [hsender] at hstep
          cases hstep
          have hstart := hexact.senderFor_start ⟨me, connectivities⟩ start connectionVersions hget
          rwa [Dispatcher.withClient_of_idle hidle, hidle] at hstart
        · rw [hpanic] at hstep
          cases hstep

theorem Exact.step_create {now start}
    (hstep : dispatcher.step me (.create connectivities now start) = .ok after) :
    Exact after (ledger.record me dispatcher (.create connectivities now start)) := by
  simp only [Dispatcher.step, Dispatcher.newChannelForTask] at hstep
  simp only [Ledger.record]
  cases hid : dispatcher.lastId.pickNewAfter now with
  | err =>
    rw [hid] at hstep
    cases hstep
    exact hexact
  | panicked =>
    rw [hid] at hstep
    cases hstep
  | ok channelId =>
    rw [hid] at hstep
    have hnext : Exact { dispatcher with lastId := channelId } ledger :=
      ⟨hexact.backed, hexact.once, hexact.held, hexact.waiting, hexact.live, hexact.started,
        hexact.absent⟩
    by_cases hlive : channelId ∈ dispatcher.client.liveIds
    · simp only [hexact.backed.senderFor_live hlive] at hstep
      cases hstep
      simp only [hlive, if_true]
      exact hnext.ensureSender channelId
    · simp only [hlive, if_false]
      have hmessage : ({ sender := me, message := { channelId, kind := .start start } } :
          MpcPeerMessage).message.channelId ∉ dispatcher.client.liveIds := hlive
      rcases @MeshNetworkClient.Backed.senderFor_start _ _ ⟨me, connectivities⟩ start
          hexact.backed _ hmessage with
        ⟨connectionVersions, receiver, hget, hsender⟩ | ⟨broken, hpanic⟩
      · simp only at hsender
        simp only [hsender] at hstep
        cases hstep
        exact hnext.senderFor_start ⟨me, connectivities⟩ start connectionVersions hget
      · simp only at hpanic
        simp only [hpanic] at hstep
        cases hstep

/-- Every event keeps the state in agreement with what happened. -/
theorem Exact.step {event} (hstep : dispatcher.step me event = .ok after) :
    Exact after (ledger.record me dispatcher event) := by
  cases event with
  | receive => exact hexact.step_receive hstep
  | create => exact hexact.step_create hstep
  | send =>
    simp only [Dispatcher.step] at hstep
    split at hstep
    next =>
      cases hstep
      exact hexact
    next message hmessage =>
      cases hstep
      exact hexact.send hmessage
    next message hmessage =>
      cases hstep
      have hidle : Exact { dispatcher with inFlight := none } ledger := by
        refine ⟨hexact.backed, hexact.once, by simp, ?_, ?_, hexact.started, hexact.absent⟩
        · intro id buffer hbuffer
          simpa [Dispatcher.onTheWay, hmessage] using hexact.waiting id buffer hbuffer
        · intro channel hchannel
          simpa [Dispatcher.onTheWay, hmessage] using hexact.live channel hchannel
      exact hidle
  | take channelId =>
    cases hstep
    exact hexact.take channelId
  | drop =>
    simp only [Dispatcher.step] at hstep
    split at hstep
    next hlive =>
      cases hstep
      simp only [Ledger.record, hlive, if_true]
      exact hexact.drop hlive
    next hlive =>
      cases hstep
      simp only [Ledger.record, hlive, if_false]
      exact hexact

/-- The state agrees with what happened after every run. -/
theorem Exact.run {events after} (hrun : dispatchRun me (dispatcher, ledger) events = .ok after) :
    Exact after.1 after.2 := by
  induction events generalizing dispatcher ledger with
  | nil =>
    cases hrun
    exact hexact
  | cons _ _ ih =>
    simp only [dispatchRun, bind_eq_ok] at hrun
    obtain ⟨_, hstep, hrest⟩ := hrun
    exact ih (hexact.step hstep) hrest

end

/-! ### One channel from a peer -/

namespace PeerChannel

def peerId : ChannelId := UniqueId.new 2 100 0

def connectivities : ParticipantId → Option ConnectionVersion := fun id ↦
  if id = 2 ∨ id = 3 then some ⟨1, 1⟩ else none

def task : MpcTaskId := .eddsaTaskId (.signature [7])

/-- A computation message of participant 2. -/
def early : MpcPeerMessage where
  sender := 2
  message := { channelId := peerId, kind := .computation [[1]] }

/-- A start message for the channel of participant 2. -/
def startFrom (sender : ParticipantId) : MpcPeerMessage where
  sender
  message := { channelId := peerId, kind := .start { taskId := task, participants := [1, 2] } }

def receive (message : MpcPeerMessage) : DispatchEvent := .receive connectivities message

/-- A message overtakes the start message of its channel, and the task then receives it. -/
def events : List DispatchEvent :=
  [receive early, .send, receive (startFrom 2), receive (startFrom 2), .send, .take peerId]

end PeerChannel

open PeerChannel

end NearMpc.Node
