import NearMpc.Contract.KeyState
import NearMpc.Library.Effect
import NearMpc.Library.LruCache
import NearMpc.Library.Run
import NearMpc.Node.Primitives

/-!
# Channels between nodes

The messages of the node, the channel of a task, and the client that hands each message it receives
to the channel the message names. Follows `primitives.rs` and `network.rs`.

A channel comes to life when its start message arrives. Messages that arrive earlier are buffered;
the buffers live in a bounded cache. `Backed` is the invariant stated in `sender_for`: a channel has
a sender exactly when it is waiting for its start message or is alive, and never both. It survives
every message whose handling does not panic, and the end of a channel.
-/

set_option autoImplicit false

namespace NearMpc.Node

open Library Library.Outcome
open NearMpc.Contract (KeyEventId)

/-! ### Tasks and messages -/

/-- The hash that names a request. -/
abbrev SignatureId := List UInt8

inductive EcdsaTaskId where
  | keyGeneration (keyEvent : KeyEventId)
  | keyResharing (keyEvent : KeyEventId)
  | manyTriples (start : UniqueId) (count : UInt32)
  | presignature (id : UniqueId) (domainId : DomainId) (pairedTripleId : UniqueId)
  | signature (id : SignatureId) (presignatureId : UniqueId)
deriving DecidableEq

inductive RobustEcdsaTaskId where
  | keyGeneration (keyEvent : KeyEventId)
  | keyResharing (keyEvent : KeyEventId)
  | presignature (id : UniqueId) (domainId : DomainId)
  | signature (id : SignatureId) (presignatureId : UniqueId)
deriving DecidableEq

inductive EddsaTaskId where
  | keyGeneration (keyEvent : KeyEventId)
  | keyResharing (keyEvent : KeyEventId)
  | signature (id : SignatureId)
deriving DecidableEq

inductive CkdTaskId where
  | keyGeneration (keyEvent : KeyEventId)
  | keyResharing (keyEvent : KeyEventId)
  | ckd (id : SignatureId)
deriving DecidableEq

inductive VerifyForeignTxTaskId where
  | verifyForeignTx (id : SignatureId) (presignatureId : UniqueId)
deriving DecidableEq

inductive MpcTaskId where
  | ecdsaTaskId (task : EcdsaTaskId)
  | eddsaTaskId (task : EddsaTaskId)
  | ckdTaskId (task : CkdTaskId)
  | robustEcdsaTaskId (task : RobustEcdsaTaskId)
  | verifyForeignTxTaskId (task : VerifyForeignTxTaskId)
deriving DecidableEq

structure MpcStartMessage where
  taskId : MpcTaskId
  participants : List ParticipantId
deriving DecidableEq

/-! The texts that `derive(Debug)` prints for a start message. -/

/-- The text of a value with named fields. -/
def debugStruct (name : String) (fields : List (String × String)) : String :=
  name ++ " \x7b " ++ ", ".intercalate (fields.map fun field ↦ field.1 ++ ": " ++ field.2) ++
    " \x7d"

/-- The text of a value with one field without a name. -/
def debugTuple (name content : String) : String := name ++ "(" ++ content ++ ")"

/-- A hash is printed in base 58, with a `1` for each zero byte at its start. -/
def SignatureId.debug (hash : SignatureId) : String :=
  let alphabet := "123456789ABCDEFGHJKLMNPQRSTUVWXYZabcdefghijkmnopqrstuvwxyz".toList
  let zeros := (hash.takeWhile (· = 0)).map fun _ ↦ '1'
  let digits := (Nat.digits 58 (BigEndian.ofBytes hash)).reverse
  String.ofList (zeros ++ digits.map fun digit ↦ alphabet.getD digit '1')

def debugDomainId (domainId : DomainId) : String := debugTuple "DomainId" (toString domainId)

def debugKeyEvent (keyEvent : KeyEventId) : String :=
  debugStruct "KeyEventId" [("epoch_id", debugTuple "EpochId" (toString keyEvent.epochId)),
    ("domain_id", debugTuple "DomainId" (toString keyEvent.domainId)),
    ("attempt_id", debugTuple "AttemptId" (toString keyEvent.attemptId))]

def EcdsaTaskId.debug : EcdsaTaskId → String
  | keyGeneration keyEvent => debugStruct "KeyGeneration" [("key_event", debugKeyEvent keyEvent)]
  | keyResharing keyEvent => debugStruct "KeyResharing" [("key_event", debugKeyEvent keyEvent)]
  | manyTriples start count =>
      debugStruct "ManyTriples" [("start", start.debug), ("count", toString count)]
  | presignature id domainId pairedTripleId =>
      debugStruct "Presignature" [("id", id.debug), ("domain_id", debugDomainId domainId),
        ("paired_triple_id", pairedTripleId.debug)]
  | signature id presignatureId =>
      debugStruct "Signature" [("id", id.debug), ("presignature_id", presignatureId.debug)]

def RobustEcdsaTaskId.debug : RobustEcdsaTaskId → String
  | keyGeneration keyEvent => debugStruct "KeyGeneration" [("key_event", debugKeyEvent keyEvent)]
  | keyResharing keyEvent => debugStruct "KeyResharing" [("key_event", debugKeyEvent keyEvent)]
  | presignature id domainId =>
      debugStruct "Presignature" [("id", id.debug), ("domain_id", debugDomainId domainId)]
  | signature id presignatureId =>
      debugStruct "Signature" [("id", id.debug), ("presignature_id", presignatureId.debug)]

def EddsaTaskId.debug : EddsaTaskId → String
  | keyGeneration keyEvent => debugStruct "KeyGeneration" [("key_event", debugKeyEvent keyEvent)]
  | keyResharing keyEvent => debugStruct "KeyResharing" [("key_event", debugKeyEvent keyEvent)]
  | signature id => debugStruct "Signature" [("id", id.debug)]

def CkdTaskId.debug : CkdTaskId → String
  | keyGeneration keyEvent => debugStruct "KeyGeneration" [("key_event", debugKeyEvent keyEvent)]
  | keyResharing keyEvent => debugStruct "KeyResharing" [("key_event", debugKeyEvent keyEvent)]
  | ckd id => debugStruct "Ckd" [("id", id.debug)]

def VerifyForeignTxTaskId.debug : VerifyForeignTxTaskId → String
  | verifyForeignTx id presignatureId =>
      debugStruct "VerifyForeignTx" [("id", id.debug), ("presignature_id", presignatureId.debug)]

def MpcTaskId.debug : MpcTaskId → String
  | ecdsaTaskId task => debugTuple "EcdsaTaskId" task.debug
  | eddsaTaskId task => debugTuple "EddsaTaskId" task.debug
  | ckdTaskId task => debugTuple "CKDTaskId" task.debug
  | robustEcdsaTaskId task => debugTuple "RobustEcdsaTaskId" task.debug
  | verifyForeignTxTaskId task => debugTuple "VerifyForeignTxTaskId" task.debug

def MpcStartMessage.debug (message : MpcStartMessage) : String :=
  debugStruct "MpcStartMessage" [("task_id", message.taskId.debug),
    ("participants", "[" ++ ", ".intercalate (message.participants.map toString) ++ "]")]

inductive MpcMessageKind where
  | start (message : MpcStartMessage)
  | computation (data : List (List UInt8))
  | abort (text : String)
  | success
deriving DecidableEq

abbrev ChannelId := UniqueId

structure MpcMessage where
  channelId : ChannelId
  kind : MpcMessageKind
deriving DecidableEq

/-- A message with the peer that sent it, as the transport has authenticated it. -/
structure MpcPeerMessage where
  sender : ParticipantId
  message : MpcMessage
deriving DecidableEq

/-! ### The client -/

structure ConnectionVersion where
  outgoing : ℕ
  incoming : ℕ
deriving DecidableEq, Repr

/-- The transport at one moment: the version of the connection to each peer. -/
structure Transport where
  myParticipantId : ParticipantId
  connectivities : ParticipantId → Option ConnectionVersion

/-- The channel of a task, with the messages that wait to be received. -/
structure NetworkTaskChannel where
  channelId : ChannelId
  taskId : MpcTaskId
  leader : ParticipantId
  myParticipantId : ParticipantId
  participants : List ParticipantId
  connectionVersions : List (ParticipantId × ConnectionVersion)
  receiver : List MpcPeerMessage
  successfulParticipants : Finset ParticipantId
deriving DecidableEq

/-- The channels of a node: those with a sender, those that wait for their start message with the
messages buffered for them, and those that are alive. -/
structure MeshNetworkClient (lru : LruCache ChannelId (List MpcPeerMessage)) where
  senders : Finset ChannelId
  channelsWaitingForStart : lru.Cache
  live : List NetworkTaskChannel

def lruCapacity : ℕ := 10000

/-- A cache of the capacity of the source. -/
def boundedLru : LruCache ChannelId (List MpcPeerMessage) := .bounded _ _ lruCapacity

variable {lru : LruCache ChannelId (List MpcPeerMessage)}

inductive SenderOrNewChannel where
  | sender
  | newChannel (channel : NetworkTaskChannel)

/-- The connection to a participant. Asking for one that is not a peer panics. -/
def Transport.connectivity (transport : Transport) (id : ParticipantId) :
    NodeResult ConnectionVersion :=
  unwrap (transport.connectivities id)

/-- The version of the connection to each listed participant. -/
def Transport.connectionVersionsOf (transport : Transport) :
    List ParticipantId → NodeResult (List (ParticipantId × ConnectionVersion))
  | [] => .ok []
  | id :: rest => do
      let version ← transport.connectivity id
      let versions ← transport.connectionVersionsOf rest
      return (id, version) :: versions

/-- The listed participants other than this node. -/
def Transport.others (transport : Transport) (participants : List ParticipantId) :
    List ParticipantId :=
  participants.filter (· ≠ transport.myParticipantId)

/-- Every listed participant other than this node is a peer. -/
def Transport.Knows (transport : Transport) (participants : List ParticipantId) : Prop :=
  ∀ id ∈ participants, id ≠ transport.myParticipantId → transport.connectivities id ≠ none

instance (transport : Transport) (participants : List ParticipantId) :
    Decidable (transport.Knows participants) :=
  List.decidableBAll (fun id ↦ id ≠ transport.myParticipantId → transport.connectivities id ≠ none)
    participants

/-- The versions of the connections are read from the transport, unless one of the participants is
not a peer. -/
theorem Transport.connectionVersionsOf_cases (transport : Transport) (ids : List ParticipantId) :
    (∃ versions, transport.connectionVersionsOf ids = .ok versions ∧
      (∀ id ∈ ids, versions.lookup id = transport.connectivities id) ∧
      ∀ id ∈ ids, transport.connectivities id ≠ none) ∨
    (transport.connectionVersionsOf ids = .panicked ∧
      ∃ id ∈ ids, transport.connectivities id = none) := by
  induction ids with
  | nil => exact .inl ⟨[], rfl, by simp, by simp⟩
  | cons id _ ih =>
    cases hversion : transport.connectivities id with
    | none =>
      refine .inr ⟨?_, id, List.mem_cons_self, hversion⟩
      simp [connectionVersionsOf, connectivity, hversion, unwrap]
    | some version =>
      rcases ih with ⟨versions, hok, hlookup, hknown⟩ | ⟨hpanic, other, hother, hunknown⟩
      · refine .inl ⟨(id, version) :: versions, ?_, ?_, ?_⟩
        · simp [connectionVersionsOf, connectivity, hversion, unwrap, hok]
        · intro other hother
          by_cases heq : other = id
          · rw [heq, hversion, List.lookup_cons_self]
          · rw [List.lookup_cons, beq_false_of_ne heq]
            exact hlookup other (List.mem_of_ne_of_mem heq hother)
        · simpa [hversion] using hknown
      · refine .inr ⟨?_, other, List.mem_cons_of_mem _ hother, hunknown⟩
        simp [connectionVersionsOf, connectivity, hversion, unwrap, hpanic]

def NetworkTaskChannel.isLeader (channel : NetworkTaskChannel) : Bool :=
  channel.myParticipantId == channel.leader

variable (message : MpcPeerMessage) (channel : NetworkTaskChannel)

/-- The channel with the message in its buffer, if the message is for this channel. -/
def NetworkTaskChannel.enqueue : NetworkTaskChannel :=
  if channel.channelId = message.message.channelId then
    { channel with receiver := channel.receiver ++ [message] }
  else channel

@[simp] theorem NetworkTaskChannel.channelId_enqueue :
    (channel.enqueue message).channelId = channel.channelId := by
  unfold enqueue
  split_ifs <;> rfl

namespace MeshNetworkClient

def new : MeshNetworkClient lru where
  senders := ∅
  channelsWaitingForStart := lru.empty
  live := []

/-- The channels that are alive. -/
def liveIds (client : MeshNetworkClient lru) : List ChannelId :=
  client.live.map NetworkTaskChannel.channelId

/-- The buffer of a channel that waits for its start message. -/
def buffer? (client : MeshNetworkClient lru) (channelId : ChannelId) :
    Option (List MpcPeerMessage) :=
  lru.get? client.channelsWaitingForStart channelId

variable (channelId : ChannelId) (client : MeshNetworkClient lru)

/-- Makes a sender and a buffer for a channel that has none. The channel whose buffer is evicted
loses its sender. -/
def ensureSender : MeshNetworkClient lru :=
  if channelId ∈ client.senders then client
  else
    let pushed := lru.push client.channelsWaitingForStart channelId []
    let senders := insert channelId client.senders
    { client with
      channelsWaitingForStart := pushed.1
      senders :=
        match pushed.2 with
        | some (other, _) => if other ≠ channelId then senders.erase other else senders
        | none => senders }

/-- Takes the buffer of a channel that waits for its start message. -/
def popWaiting (channelId : ChannelId) :
    Effect (MeshNetworkClient lru) NodeError (Option (List MpcPeerMessage)) := fun client ↦
  let popped := lru.pop client.channelsWaitingForStart channelId
  ({ client with channelsWaitingForStart := popped.1 }, .ok popped.2)

variable (transport : Transport)

/-- The sender of a channel, or the channel itself when its start message arrives. -/
def senderFor (channelId : ChannelId) (start : Option MpcStartMessage)
    (originator : ParticipantId) : Effect (MeshNetworkClient lru) NodeError SenderOrNewChannel := do
  .modify (ensureSender channelId)
  match start with
  | none => return .sender
  | some start =>
    match ← popWaiting channelId with
    | none => return .sender
    | some receiver =>
      let connectionVersions ←
        (transport.connectionVersionsOf (transport.others start.participants) : NodeResult _)
      return .newChannel {
        channelId
        taskId := start.taskId
        leader := originator
        myParticipantId := transport.myParticipantId
        participants := start.participants
        connectionVersions
        receiver
        successfulParticipants := ∅ }

/-- Appends a message to the buffer of its channel. -/
def deliver (message : MpcPeerMessage) : Effect (MeshNetworkClient lru) NodeError Unit :=
  fun client ↦
  if (client.buffer? message.message.channelId).isSome then
    ({ client with
        channelsWaitingForStart := lru.adjust client.channelsWaitingForStart
          message.message.channelId (· ++ [message]) }, .ok ())
  else if message.message.channelId ∈ client.liveIds then
    ({ client with live := client.live.map (·.enqueue message) }, .ok ())
  else (client, .err "channel closed")

/-- The start message, if the message is one. -/
def startOf : MpcMessageKind → Option MpcStartMessage
  | .start message => some message
  | _ => none

/-- Handles a message from the transport. The result is the channel it brings to life, if any. -/
def runReceiveMessage (message : MpcPeerMessage) :
    Effect (MeshNetworkClient lru) NodeError (Option NetworkTaskChannel) := do
  match ← senderFor transport message.message.channelId (startOf message.message.kind)
      message.sender with
  | .sender =>
    deliver message
    return none
  | .newChannel channel =>
    Effect.modify fun client ↦ { client with live := channel :: client.live }
    return some channel

/-- A channel that is dropped removes its sender. -/
def dropChannel : MeshNetworkClient lru :=
  { client with
    live := client.live.filter (·.channelId ≠ channelId)
    senders := client.senders.erase channelId }

/-! ### The invariant of the senders -/

/-- A channel has a sender exactly when it waits for its start message or is alive, never both. -/
structure Backed (client : MeshNetworkClient lru) : Prop where
  senders : ∀ id, id ∈ client.senders ↔ (client.buffer? id).isSome ∨ id ∈ client.liveIds
  exclusive : ∀ id, (client.buffer? id).isSome → id ∉ client.liveIds

theorem buffer?_new (id : ChannelId) : (new : MeshNetworkClient lru).buffer? id = none :=
  lru.get?_empty id

theorem backed_new : (new : MeshNetworkClient lru).Backed where
  senders := fun id ↦ by rw [buffer?_new]; simp [new, liveIds]
  exclusive := fun id ↦ by simp [buffer?_new]

variable {client : MeshNetworkClient lru}

@[simp] theorem live_ensureSender (channelId : ChannelId) :
    (ensureSender channelId client).live = client.live := by
  unfold ensureSender
  split_ifs <;> rfl

theorem ensureSender_of_mem {channelId} (hsender : channelId ∈ client.senders) :
    ensureSender channelId client = client := by
  rw [ensureSender, if_pos hsender]

/-- The channel whose buffer is evicted when this one gets a buffer. -/
def evictedFor (channelId : ChannelId) (client : MeshNetworkClient lru) : Option ChannelId :=
  if channelId ∈ client.senders then none
  else (lru.push client.channelsWaitingForStart channelId []).2.map Prod.fst

/-- What is evicted for a channel is the buffer of another one. -/
theorem Backed.buffer?_evictedFor (hbacked : client.Backed) {channelId id}
    (hevicted : client.evictedFor channelId = some id) :
    (client.buffer? id).isSome ∧ id ≠ channelId := by
  unfold evictedFor at hevicted
  split_ifs at hevicted with hsender
  obtain ⟨entry, hentry, rfl⟩ := Option.map_eq_some_iff.mp hevicted
  have hbuffer : (client.buffer? entry.1).isSome := by
    rw [buffer?, lru.get?_of_mem_push _ _ _ entry hentry]
    rfl
  refine ⟨hbuffer, fun heq ↦ hsender ?_⟩
  rw [hbacked.senders, ← heq]
  exact .inl hbuffer

/-- A channel that has no sender gets one, and so does nobody else. The one whose buffer is evicted
loses its sender. -/
theorem Backed.mem_senders_ensureSender (hbacked : client.Backed) (channelId id : ChannelId) :
    id ∈ (ensureSender channelId client).senders ↔
      id = channelId ∨ id ∈ client.senders ∧ client.evictedFor channelId ≠ some id := by
  have hother (gone : ChannelId) (hgone : client.evictedFor channelId = some gone) :
      gone ≠ channelId := (hbacked.buffer?_evictedFor hgone).2
  unfold ensureSender
  unfold evictedFor at hother ⊢
  split_ifs at hother ⊢ with hsender
  · constructor
    · exact fun hid ↦ .inr ⟨hid, nofun⟩
    · rintro (rfl | ⟨hid, -⟩) <;> assumption
  · cases hpushed : (lru.push client.channelsWaitingForStart channelId []).2 with
    | none => simp [hpushed]
    | some entry =>
      have hne : entry.1 ≠ channelId := hother entry.1 (by rw [hpushed]; rfl)
      by_cases hid : id = channelId
      · simp [hpushed, hne, hid, hne.symm]
      · simp [hpushed, hne, hid, eq_comm, and_comm]

/-- A channel that has no sender gets an empty buffer, and the evicted buffer is gone. -/
theorem Backed.buffer?_ensureSender (hbacked : client.Backed) (channelId id : ChannelId)
    (buffer : List MpcPeerMessage) :
    (client.ensureSender channelId).buffer? id = some buffer ↔
      (channelId ∉ client.senders ∧ id = channelId ∧ buffer = []) ∨
      (client.buffer? id = some buffer ∧ client.evictedFor channelId ≠ some id) := by
  unfold ensureSender evictedFor
  split_ifs with hsender
  · simp [hsender]
  · have hnone : client.buffer? channelId = none := by
      rw [← Option.not_isSome_iff_eq_none]
      exact fun hbuffer ↦ hsender ((hbacked.senders channelId).mpr (.inl hbuffer))
    refine (lru.get?_push client.channelsWaitingForStart channelId [] id buffer).trans ?_
    have hevicted : (∀ entry ∈ (lru.push client.channelsWaitingForStart channelId []).2,
        entry.1 ≠ id) ↔
        (lru.push client.channelsWaitingForStart channelId []).2.map Prod.fst ≠ some id := by
      cases (lru.push client.channelsWaitingForStart channelId []).2 <;> simp
    rw [hevicted]
    by_cases hid : id = channelId
    · simp [hid, hsender, hnone]
    · simp [hid, buffer?]

theorem Backed.ensureSender (hbacked : client.Backed) (channelId : ChannelId) :
    (client.ensureSender channelId).Backed := by
  have hliveIds : (client.ensureSender channelId).liveIds = client.liveIds := by
    rw [liveIds, live_ensureSender, liveIds]
  have hbuffer : ∀ id, ((client.ensureSender channelId).buffer? id).isSome ↔
      (channelId ∉ client.senders ∧ id = channelId) ∨
      ((client.buffer? id).isSome ∧ client.evictedFor channelId ≠ some id) := by
    intro id
    simp only [Option.isSome_iff_exists, hbacked.buffer?_ensureSender, exists_or]
    grind
  -- a channel that is alive has no buffer, so it is not the evicted one
  have halive : ∀ id ∈ client.liveIds, client.evictedFor channelId ≠ some id :=
    fun id hlive hevicted ↦
      hbacked.exclusive id (hbacked.buffer?_evictedFor hevicted).1 hlive
  refine ⟨fun id ↦ ?_, fun id hid ↦ ?_⟩
  · have hlive := halive id
    have hsenders := hbacked.senders id
    rw [hbacked.mem_senders_ensureSender, hbuffer, hliveIds]
    by_cases hid : id = channelId
    · subst hid
      have hother : client.evictedFor id ≠ some id :=
        fun hevicted ↦ (hbacked.buffer?_evictedFor hevicted).2 rfl
      tauto
    · tauto
  · rw [hliveIds]
    rcases (hbuffer id).mp hid with ⟨hsender, rfl⟩ | ⟨hid, -⟩
    · exact fun hlive ↦ hsender ((hbacked.senders id).mpr (.inr hlive))
    · exact hbacked.exclusive id hid

theorem Backed.mem_senders_ensureSender_self (hbacked : client.Backed) (channelId : ChannelId) :
    channelId ∈ (client.ensureSender channelId).senders :=
  (hbacked.mem_senders_ensureSender channelId channelId).mpr (.inl rfl)

/-- Once it has a sender, a channel waits for its start message unless it is alive. -/
theorem Backed.buffer?_ensureSender_isSome (hbacked : client.Backed) (channelId : ChannelId) :
    ((client.ensureSender channelId).buffer? channelId).isSome ↔ channelId ∉ client.liveIds := by
  have hensured := hbacked.ensureSender channelId
  have hliveIds : (client.ensureSender channelId).liveIds = client.liveIds := by
    rw [liveIds, live_ensureSender, liveIds]
  constructor
  · intro hwaiting
    rw [← hliveIds]
    exact hensured.exclusive channelId hwaiting
  · intro hlive
    have hsender :=
      (hensured.senders channelId).mp (hbacked.mem_senders_ensureSender_self channelId)
    rw [hliveIds] at hsender
    exact hsender.resolve_right hlive

theorem Backed.buffer?_of_live (hbacked : client.Backed) {channelId}
    (hlive : channelId ∈ client.liveIds) :
    lru.get? (client.ensureSender channelId).channelsWaitingForStart channelId = none := by
  rw [← Option.not_isSome_iff_eq_none]
  exact fun hbuffer ↦ (hbacked.buffer?_ensureSender_isSome channelId).mp hbuffer hlive

theorem Backed.buffer?_of_not_live (hbacked : client.Backed) {channelId}
    (hlive : channelId ∉ client.liveIds) :
    ∃ receiver, lru.get? (client.ensureSender channelId).channelsWaitingForStart channelId =
      some receiver :=
  Option.isSome_iff_exists.mp ((hbacked.buffer?_ensureSender_isSome channelId).mpr hlive)

/-- The client once the start message of a channel has been taken. -/
def started (channelId : ChannelId) (client : MeshNetworkClient lru) : MeshNetworkClient lru :=
  { client.ensureSender channelId with
    channelsWaitingForStart :=
      (lru.pop (client.ensureSender channelId).channelsWaitingForStart channelId).1 }

variable {transport : Transport} {message : MpcPeerMessage} {start : MpcStartMessage}

/-- The channel that a start message brings to life. -/
def channelOf (transport : Transport) (message : MpcPeerMessage) (start : MpcStartMessage)
    (connectionVersions : List (ParticipantId × ConnectionVersion))
    (receiver : List MpcPeerMessage) : NetworkTaskChannel where
  channelId := message.message.channelId
  taskId := start.taskId
  leader := message.sender
  myParticipantId := transport.myParticipantId
  participants := start.participants
  connectionVersions
  receiver
  successfulParticipants := ∅

/-- A message that is not a start message, or is for a channel that is alive, is delivered. -/
theorem Backed.runReceiveMessage_deliver (hbacked : client.Backed)
    (hsender : startOf message.message.kind = none ∨ message.message.channelId ∈ client.liveIds) :
    runReceiveMessage transport message client =
      (deliver message >>= fun _ ↦ pure none)
        (client.ensureSender message.message.channelId) := by
  rcases hstart : startOf message.message.kind with _ | start
  · simp [runReceiveMessage, senderFor, hstart, Effect.bind_def, Effect.andThen]
  · rw [hstart] at hsender
    have hlive := hsender.resolve_left (by simp)
    have hget := hbacked.buffer?_of_live hlive
    have hpop := lru.pop_fst_of_none _ _ hget
    simp [runReceiveMessage, senderFor, hstart, popWaiting, lru.pop_snd, hget, hpop,
      Effect.bind_def, Effect.andThen, -live_ensureSender]

section

variable (hbacked : client.Backed) (hkind : message.message.kind = .start start)
  (hlive : message.message.channelId ∉ client.liveIds)
include hbacked hkind hlive

/-- A start message for a channel that is not alive brings it to life. -/
theorem Backed.runReceiveMessage_start (hknows : transport.Knows start.participants) :
    ∃ connectionVersions receiver,
      (∀ id ∈ transport.others start.participants,
        connectionVersions.lookup id = transport.connectivities id) ∧
      runReceiveMessage transport message client =
        ({ client.started message.message.channelId with
            live := channelOf transport message start connectionVersions receiver :: client.live },
          .ok (some (channelOf transport message start connectionVersions receiver))) := by
  obtain ⟨receiver, hget⟩ := hbacked.buffer?_of_not_live hlive
  rcases transport.connectionVersionsOf_cases (transport.others start.participants) with
    ⟨connectionVersions, hok, hlookup, -⟩ | ⟨-, id, hid, hunknown⟩
  · refine ⟨connectionVersions, receiver, hlookup, ?_⟩
    simp [runReceiveMessage, senderFor, hkind, startOf, popWaiting, lru.pop_snd, hget, hok,
      Effect.bind_def, Effect.andThen, started, channelOf]
  · rw [Transport.others, List.mem_filter, decide_eq_true_eq] at hid
    exact absurd hunknown (hknows id hid.1 hid.2)

/-- A start message that lists a participant who is not a peer panics. -/
theorem Backed.runReceiveMessage_panicked (hknows : ¬ transport.Knows start.participants) :
    (runReceiveMessage transport message).Panics client := by
  obtain ⟨_, hget⟩ := hbacked.buffer?_of_not_live hlive
  rcases transport.connectionVersionsOf_cases (transport.others start.participants) with
    ⟨-, -, -, hknown⟩ | ⟨hpanic, -⟩
  · refine absurd (fun id hid hme ↦ hknown id ?_) hknows
    rw [Transport.others, List.mem_filter, decide_eq_true_eq]
    exact ⟨hid, hme⟩
  · simp [Effect.Panics, runReceiveMessage, senderFor, hkind, startOf, popWaiting, lru.pop_snd,
      hget, hpanic, Effect.bind_def, Effect.andThen]

end

theorem liveIds_deliver (client : MeshNetworkClient lru) (message : MpcPeerMessage) :
    (deliver message client).1.liveIds = client.liveIds := by
  unfold deliver
  split_ifs with hwaiting hlive
  · rfl
  · simp only [liveIds, List.map_map]
    exact List.map_congr_left fun channel _ ↦ NetworkTaskChannel.channelId_enqueue message channel
  · rfl

theorem Backed.deliver (hbacked : client.Backed) (message : MpcPeerMessage) :
    (MeshNetworkClient.deliver message client).1.Backed := by
  have hliveIds := liveIds_deliver client message
  have hsenders : (MeshNetworkClient.deliver message client).1.senders = client.senders := by
    unfold MeshNetworkClient.deliver
    split_ifs <;> rfl
  have hbuffer (id : ChannelId) : ((MeshNetworkClient.deliver message client).1.buffer? id).isSome =
      (client.buffer? id).isSome := by
    unfold MeshNetworkClient.deliver
    split_ifs
    · by_cases hid : id = message.message.channelId
      · simp [buffer?, hid, lru.get?_adjust_self]
      · simp [buffer?, lru.get?_adjust_of_ne _ _ _ _ hid]
    · rfl
    · rfl
  refine ⟨fun id ↦ ?_, fun id ↦ ?_⟩
  · rw [hsenders, hbuffer, hliveIds]
    exact hbacked.senders id
  · rw [hbuffer, hliveIds]
    exact hbacked.exclusive id

theorem Backed.dropChannel (hbacked : client.Backed) {channelId}
    (hlive : channelId ∈ client.liveIds) : (client.dropChannel channelId).Backed := by
  have hliveIds : ∀ id, id ∈ (client.dropChannel channelId).liveIds ↔
      id ∈ client.liveIds ∧ id ≠ channelId := by
    intro _
    simp only [liveIds, MeshNetworkClient.dropChannel, List.mem_map, List.mem_filter,
      decide_eq_true_eq]
    constructor
    · rintro ⟨channel, ⟨hmem, hne⟩, rfl⟩
      exact ⟨⟨channel, hmem, rfl⟩, hne⟩
    · rintro ⟨⟨channel, hmem, rfl⟩, hne⟩
      exact ⟨channel, ⟨hmem, hne⟩, rfl⟩
  refine ⟨fun id ↦ ?_, fun id hid ↦ ?_⟩
  · have hwaiting : (client.buffer? id).isSome → id ≠ channelId := by
      rintro hid rfl
      exact hbacked.exclusive id hid hlive
    have hbuffer : (client.dropChannel channelId).buffer? id = client.buffer? id := rfl
    rw [hliveIds, hbuffer]
    simp only [MeshNetworkClient.dropChannel, Finset.mem_erase, hbacked.senders]
    tauto
  · rw [hliveIds]
    exact fun hdropped ↦ hbacked.exclusive id hid hdropped.1

/-- A message is delivered to a channel, or brings one to life. -/
theorem delivered_or_start (client : MeshNetworkClient lru) (message : MpcPeerMessage) :
    (startOf message.message.kind = none ∨ message.message.channelId ∈ client.liveIds) ∨
      ∃ start, message.message.kind = .start start ∧
        message.message.channelId ∉ client.liveIds := by
  by_cases hlive : message.message.channelId ∈ client.liveIds
  · exact .inl (.inr hlive)
  · cases hkind : message.message.kind with
    | start start => exact .inr ⟨start, rfl, hlive⟩
    | computation | abort | success => exact .inl (.inl rfl)

theorem deliver_ne_panicked (message : MpcPeerMessage) :
    (deliver message client).2 ≠ .panicked := by
  unfold deliver
  split_ifs <;> simp

/-- The start message moves its channel from those that wait to those that are alive. -/
theorem Backed.started (hbacked : client.Backed) (channel : NetworkTaskChannel) :
    Backed { client.started channel.channelId with live := channel :: client.live } := by
  have hensured := hbacked.ensureSender channel.channelId
  have hliveIds : (client.ensureSender channel.channelId).liveIds = client.liveIds := by
    rw [liveIds, live_ensureSender, liveIds]
  have hbuffer (id : ChannelId) : (buffer?
      { client.started channel.channelId with live := channel :: client.live } id).isSome ↔
        id ≠ channel.channelId ∧ ((client.ensureSender channel.channelId).buffer? id).isSome := by
    simp only [Option.isSome_iff_exists, buffer?, MeshNetworkClient.started, lru.get?_pop,
      exists_and_left]
  refine ⟨fun id ↦ ?_, fun id hid ↦ ?_⟩
  · have hsender := hensured.senders id
    have hself := hbacked.mem_senders_ensureSender_self channel.channelId
    rw [hliveIds] at hsender
    rw [hbuffer]
    simp only [MeshNetworkClient.started, liveIds, List.map_cons, List.mem_cons]
    by_cases hid : id = channel.channelId
    · rw [hid]
      simp [hself]
    · simpa [hid, liveIds] using hsender
  · rw [hbuffer] at hid
    have hother := hensured.exclusive id hid.2
    rw [hliveIds] at hother
    simp only [liveIds, List.map_cons, List.mem_cons, not_or]
    exact ⟨hid.1, hother⟩

/-- Handling a message panics exactly when it is the first start message of its channel and lists
a participant who is not a peer. -/
theorem Backed.runReceiveMessage_panics_iff (hbacked : client.Backed) :
    (runReceiveMessage transport message).Panics client ↔
      ∃ start, message.message.kind = .start start ∧
        message.message.channelId ∉ client.liveIds ∧ ¬ transport.Knows start.participants := by
  constructor
  · intro hpanics
    rcases delivered_or_start client message with hdelivered | ⟨start, hkind, hlive⟩
    · rw [Effect.Panics, hbacked.runReceiveMessage_deliver hdelivered, ← Effect.Panics,
        Effect.bind_panics] at hpanics
      rcases hpanics with hpanics | ⟨middle, value, -, hpanics⟩
      · exact absurd hpanics (deliver_ne_panicked message)
      · exact absurd hpanics (Effect.pure_panics _)
    · refine ⟨start, hkind, hlive, fun hknows ↦ ?_⟩
      obtain ⟨_, _, -, hok⟩ := hbacked.runReceiveMessage_start hkind hlive hknows
      rw [Effect.Panics, hok] at hpanics
      cases hpanics
  · rintro ⟨_, hkind, hlive, hknows⟩
    exact hbacked.runReceiveMessage_panicked hkind hlive hknows

/-- Handling a message keeps the invariant, unless it panics. -/
theorem Backed.runReceiveMessage (hbacked : client.Backed)
    (hpanics : ¬ (MeshNetworkClient.runReceiveMessage transport message).Panics client) :
    (MeshNetworkClient.runReceiveMessage transport message client).1.Backed := by
  rcases delivered_or_start client message with hdelivered | ⟨start, hkind, hlive⟩
  · have hafter := (hbacked.ensureSender message.message.channelId).deliver message
    rw [hbacked.runReceiveMessage_deliver hdelivered, Effect.bind_def, Effect.andThen]
    rcases houtcome : MeshNetworkClient.deliver message
        (client.ensureSender message.message.channelId) with ⟨after, outcome⟩
    rw [houtcome] at hafter
    cases outcome <;> exact hafter
  · have hknows : transport.Knows start.participants := by
      by_contra hunknown
      exact hpanics (hbacked.runReceiveMessage_panicked hkind hlive hunknown)
    obtain ⟨versions, receiver, -, hok⟩ := hbacked.runReceiveMessage_start hkind hlive hknows
    rw [hok]
    exact hbacked.started (channelOf transport message start versions receiver)

/-- The states of a client that has handled messages and dropped channels without a panic. -/
inductive Reachable : MeshNetworkClient lru → Prop where
  | new : Reachable new
  | receive {client : MeshNetworkClient lru} {transport : Transport} {message : MpcPeerMessage}
      (hclient : Reachable client)
      (hpanics : ¬ (MeshNetworkClient.runReceiveMessage transport message).Panics client) :
      Reachable (MeshNetworkClient.runReceiveMessage transport message client).1
  | drop {client : MeshNetworkClient lru} {channelId : ChannelId} (hclient : Reachable client)
      (hlive : channelId ∈ client.liveIds) : Reachable (client.dropChannel channelId)

theorem Reachable.backed (hreachable : client.Reachable) : client.Backed := by
  induction hreachable with
  | new => exact backed_new
  | receive _ hpanics ih => exact ih.runReceiveMessage hpanics
  | drop _ hlive ih => exact ih.dropChannel hlive

end MeshNetworkClient

end NearMpc.Node
