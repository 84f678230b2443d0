import NearMpc.Node.PlantedAssets
import NearMpc.Node.ProtocolDriver

/-!
# Starting a task

What a node does with a start message: the client opens the channel of the task, and the follower
function of the task runs up to the construction of its protocol. A set-up that fails drops the
channel. Follows `sender_for` and `run_receive_message` in `network.rs`, and `process_channel_task`
in `mpc_client.rs`.

The list of participants comes from the peer that starts the task. It is used in two places that do
not expect every list: opening the channel looks every listed participant up in the table of peers,
and the signing computations unwrap a `ParticipantList` built from it. `setUp_panics_iff` and
`Backed.runReceiveMessage_panics_iff` say when the two fail.
-/

set_option autoImplicit false

namespace NearMpc.Node

open Library Library.Outcome NearMpc.Threshold EcdsaSignatureProvider AssetStoreConfig

section

variable {F G EddsaKeys CkdKeys ElementG1 : Type}

/-! ### Connections -/

/-- A channel that was opened with the participants of a start message. -/
structure NetworkTaskChannel.Opened (transport : Transport) (channel : NetworkTaskChannel) :
    Prop where
  mine : channel.myParticipantId = transport.myParticipantId
  known : transport.Knows channel.participants
  versions : ∀ id ∈ transport.others channel.participants,
    channel.connectionVersions.lookup id = transport.connectivities id

namespace Surroundings

variable (surroundings : Surroundings)

/-- Waiting for the connections to the listed participants succeeds. -/
def Reaches (participants : List ParticipantId) : Prop :=
  ∀ id ∈ participants, id ≠ surroundings.transport.myParticipantId →
    ∀ version, surroundings.transport.connectivities id = some version →
      surroundings.waitForConnection id version = none

/-- A follower has to reach the listed participants before it computes. -/
def Connects (leader : ParticipantId) (participants : List ParticipantId) : Prop :=
  surroundings.transport.myParticipantId = leader ∨ surroundings.Reaches participants

end Surroundings

variable {surroundings : Surroundings} {channel : NetworkTaskChannel}

section

variable (hopened : channel.Opened surroundings.transport)
include hopened

theorem initializeAllParticipantsConnections_cases {participants}
    (hlisted : participants ⊆ channel.participants) :
    (initializeAllParticipantsConnections surroundings channel participants = .ok () ∧
      surroundings.Reaches participants) ∨
    ∃ failure, initializeAllParticipantsConnections surroundings channel participants =
        .err failure ∧ ¬ surroundings.Reaches participants := by
  induction participants with
  | nil => exact Or.inl ⟨rfl, by simp [Surroundings.Reaches]⟩
  | cons participant rest ih =>
    rw [List.cons_subset] at hlisted
    have hreaches : surroundings.Reaches (participant :: rest) ↔
        (participant ≠ surroundings.transport.myParticipantId →
          ∀ version, surroundings.transport.connectivities participant = some version →
            surroundings.waitForConnection participant version = none) ∧
          surroundings.Reaches rest := List.forall_mem_cons
    unfold initializeAllParticipantsConnections
    rw [hopened.mine, hreaches]
    split_ifs with hme
    · simpa [hme] using ih hlisted.2
    have hmem : participant ∈ surroundings.transport.others channel.participants := by
      rw [Transport.others, List.mem_filter, decide_eq_true_eq]
      exact ⟨hlisted.1, hme⟩
    obtain ⟨version, hversion⟩ :=
      Option.ne_none_iff_exists'.mp (hopened.known participant hlisted.1 hme)
    have hlookup : channel.connectionVersions.lookup participant = some version := by
      rw [hopened.versions participant hmem, hversion]
    simp only [Transport.connectivity, hversion, hlookup, unwrap, ok_bind]
    cases hwait : surroundings.waitForConnection participant version with
    | some failure => exact Or.inr ⟨failure, rfl, by simp [hme, hwait]⟩
    | none => simpa [hme, hwait] using ih hlisted.2

/-- What happens before a computation: the follower reaches everyone, or fails. -/
theorem beforeComputation_cases :
    (beforeComputation surroundings channel = .ok () ∧
      surroundings.Connects channel.leader channel.participants) ∨
    ∃ failure, beforeComputation surroundings channel = .err failure ∧
      ¬ surroundings.Connects channel.leader channel.participants := by
  unfold beforeComputation Surroundings.Connects
  rw [NetworkTaskChannel.isLeader, hopened.mine]
  by_cases hleader : surroundings.transport.myParticipantId = channel.leader
  · exact Or.inl ⟨by simp [hleader], Or.inl hleader⟩
  · simpa [hleader] using
      initializeAllParticipantsConnections_cases hopened (List.Subset.refl channel.participants)

theorem beforeComputation_ne_panicked : beforeComputation surroundings channel ≠ .panicked := by
  rcases beforeComputation_cases hopened with ⟨hok, -⟩ | ⟨failure, herr, -⟩
  · rw [hok]
    simp
  · rw [herr]
    simp

theorem beforeComputation_eq_ok {done} :
    beforeComputation surroundings channel = .ok done ↔
      surroundings.Connects channel.leader channel.participants := by
  rcases beforeComputation_cases hopened with ⟨hok, hconnects⟩ | ⟨failure, herr, hconnects⟩
  · rw [hok]
    simp [hconnects]
  · rw [herr]
    simp [hconnects]

end

/-! ### Records -/

section Records

variable {Value T : Type} (config : AssetStoreConfig Value T) (db : SecretDB Value) (id : UniqueId)

/-- The database has a record under the id, and it decodes. -/
def AssetStoreConfig.Holds : Prop :=
  ∃ value asset, db.get config.col (config.makeKey id) = some value ∧
    config.codec.fromValue value = some asset

theorem AssetStoreConfig.takeUnowned_panics : ¬ (config.takeUnowned id).Panics db := by
  unfold Effect.Panics takeUnowned
  cases db.get config.col (config.makeKey id) <;> simp

theorem AssetStoreConfig.exists_takeUnowned_iff {config : AssetStoreConfig Value T}
    {db : SecretDB Value} {id : UniqueId} :
    (∃ after asset, config.takeUnowned id db = (after, .ok asset)) ↔ config.Holds db id := by
  constructor
  · rintro ⟨_, asset, htaken⟩
    obtain ⟨value, hget, hdecoded, -⟩ := takeUnowned_eq_ok htaken
    exact ⟨value, asset, hget, hdecoded⟩
  · rintro ⟨_, asset, hget, hdecoded⟩
    refine ⟨db.delete config.col (config.makeKey id), asset, ?_⟩
    simp [takeUnowned, hget, hdecoded, okOr]

end Records

/-! ### Tasks that do not sign -/

section NotSigning

variable {client : MpcClient F G EddsaKeys CkdKeys ElementG1}
  {db : SecretDB (StoredValue F G)}

theorem EcdsaSignatureProvider.runTripleGenerationFollower_panics
    (hopened : channel.Opened surroundings.transport) (start : UniqueId) (count : UInt32) :
    ¬ (runTripleGenerationFollower client surroundings channel start count).Panics db := by
  unfold runTripleGenerationFollower
  simp only [Effect.monadLift_eq, Effect.lift_bind_panics, require_ne_panicked,
    beforeComputation_ne_panicked hopened, mapErr_eq_panicked,
    OtBasedEcdsa.generateTripleMany_ne_panicked, Effect.pure_panics]
  simp [guardPanic, supportedTripleGenerationBatchSize]

theorem EcdsaSignatureProvider.runPresignatureGenerationFollower_panics
    (hopened : channel.Opened surroundings.transport) (id : UniqueId) (domainId : DomainId)
    (pairedTripleId : UniqueId) :
    ¬ (runPresignatureGenerationFollower client surroundings channel id domainId
      pairedTripleId).Panics db := by
  unfold runPresignatureGenerationFollower
  simp only [Effect.monadLift_eq, Effect.lift_bind_panics, keyshareOf, okOr_ne_panicked,
    beforeComputation_ne_panicked hopened]
  simp [Effect.bind_panics, takeUnowned_panics, OtBasedEcdsa.presign_ne_panicked]

theorem translateThreshold_ne_panicked (threshold numberOfParticipants : ℕ) :
    translateThreshold threshold numberOfParticipants ≠ .panicked := by
  simp [translateThreshold, getNumberOfSigners, bind_eq_panicked]

section

variable (hopened : channel.Opened surroundings.transport)
include hopened

theorem RobustEcdsaSignatureProvider.runPresignatureGenerationFollower_panics (id : UniqueId)
    (domainId : DomainId) :
    ¬ (runPresignatureGenerationFollower client surroundings channel id domainId).Panics db := by
  unfold runPresignatureGenerationFollower
  simp [Effect.lift_bind_panics, keyshareOf, beforeComputation_ne_panicked hopened,
    translateThreshold_ne_panicked, RobustEcdsa.presign_ne_panicked]

theorem EddsaSignatureProvider.processChannel_ne_panicked (task : EddsaTaskId) :
    processChannel client surroundings channel task ≠ .panicked := by
  cases task <;> simp [processChannel, makeSignatureFollower, bind_eq_panicked, keyshareOf,
    beforeComputation_ne_panicked hopened, Eddsa.sign_ne_panicked]

theorem CkdProvider.processChannel_ne_panicked (task : CkdTaskId) :
    processChannel client surroundings channel task ≠ .panicked := by
  cases task <;> simp [processChannel, makeCkdFollower, bind_eq_panicked, keyshareOf,
    beforeComputation_ne_panicked hopened, Ckd.ckd_ne_panicked, Ckd.tryNewAppId]

end

end NotSigning

/-! ### The participant list of a signing computation -/

/-- What a follower of either scheme needs before it builds the participant list: the key share, an
ECDSA payload, the connections, the presignature, and canonical scalars. -/
def SigningReady (surroundings : Surroundings) (curve : Curve F G)
    (keyshares : DomainId → Option (KeygenOutput F G)) {Presignature : Type}
    (store : DomainId → AssetStoreConfig (StoredValue F G) Presignature)
    (db : SecretDB (StoredValue F G)) (leader : ParticipantId)
    (participants : List ParticipantId) (request : SignatureRequest) (presignatureId : UniqueId) :
    Prop :=
  keyshares request.domain ≠ none ∧ surroundings.Connects leader participants ∧
    (store request.domain).Holds db presignatureId ∧ curve.fromRepr request.tweak ≠ none ∧
    ∃ hash, request.payload.asEcdsa = some hash ∧ curve.fromRepr hash ≠ none

variable {db : SecretDB (StoredValue F G)} {presignatureId : UniqueId}

/-- The checks of a follower one by one, up to the participant list. -/
theorem signingReady_iff {keyshares : DomainId → Option (KeygenOutput F G)}
    {Presignature : Type}
    {store : DomainId → AssetStoreConfig (StoredValue F G) Presignature}
    {request : SignatureRequest} {leader : ParticipantId} {participants : List ParticipantId}
    {curve : Curve F G} :
    SigningReady surroundings curve keyshares store db leader participants request presignatureId ↔
      ∃ keygenOut, keyshares request.domain = some keygenOut ∧ ∃ hash,
        request.payload.asEcdsa = some hash ∧ surroundings.Connects leader participants ∧
        ∃ after record, (store request.domain).takeUnowned presignatureId db = (after, .ok record) ∧
          curve.fromRepr request.tweak ≠ none ∧ curve.fromRepr hash ≠ none := by
  rw [SigningReady, Option.ne_none_iff_exists', ← exists_takeUnowned_iff]
  constructor
  · rintro ⟨⟨keygenOut, hkeys⟩, hconnects, ⟨after, record, htaken⟩, htweak, hash, hpayload, hhash⟩
    exact ⟨keygenOut, hkeys, hash, hpayload, hconnects, after, record, htaken, htweak, hhash⟩
  · rintro ⟨keygenOut, hkeys, hash, hpayload, hconnects, after, record, htaken, htweak, hhash⟩
    exact ⟨⟨keygenOut, hkeys⟩, hconnects, ⟨after, record, htaken⟩, htweak, hash, hpayload, hhash⟩

variable [Field F] [DecidableEq F] [AddCommGroup G] [Module F G]
  [DecidableEq G]

omit [DecidableEq F] [DecidableEq G] in
/-- The unwrap of the participant list is reached once the tweak and the hash are scalars. -/
theorem prepareSigning_panicked_iff {curve : Curve F G} {inputs : SignInputs F G}
    {bigR : G} :
    prepareSigning curve inputs bigR channel = .panicked ↔
      curve.fromRepr inputs.tweak ≠ none ∧ curve.fromRepr inputs.msgHash ≠ none ∧
        ¬ channel.participants.Nodup := by
  unfold prepareSigning
  cases htweak : curve.fromRepr inputs.tweak with
  | none => simp [okOr]
  | some =>
    cases hhash : curve.fromRepr inputs.msgHash with
    | none => simp [okOr]
    | some =>
      rw [← ParticipantList.new_eq_none_iff]
      cases hlist : ParticipantList.new channel.participants <;> simp [okOr, unwrap]

variable {client : MpcClient F G EddsaKeys CkdKeys ElementG1}
  {inputs : SignInputs F G}

theorem EcdsaSignatureProvider.signComputation_panicked_iff
    {presignOut : OtBasedEcdsa.PresignOutput F G} :
    signComputation client channel inputs presignOut = .panicked ↔
      client.curve.fromRepr inputs.tweak ≠ none ∧ client.curve.fromRepr inputs.msgHash ≠ none ∧
        ¬ channel.participants.Nodup := by
  unfold signComputation
  rw [bind_eq_panicked, prepareSigning_panicked_iff, or_iff_left_iff_imp]
  rintro ⟨⟨_, _, _⟩, -, hpanic⟩
  simp [bind_eq_panicked, OtBasedEcdsa.rerandomizePresign, rerandomizationFactor_ne_panicked,
    OtBasedEcdsa.sign_ne_panicked] at hpanic

theorem RobustEcdsaSignatureProvider.signComputation_panicked_iff {maxMalicious : MaxMalicious}
    {presignOut : RobustEcdsa.PresignOutput F G} :
    signComputation client channel inputs maxMalicious presignOut = .panicked ↔
      client.curve.fromRepr inputs.tweak ≠ none ∧ client.curve.fromRepr inputs.msgHash ≠ none ∧
        ¬ channel.participants.Nodup := by
  unfold signComputation
  rw [bind_eq_panicked, prepareSigning_panicked_iff, or_iff_left_iff_imp]
  rintro ⟨⟨_, _, _⟩, -, hpanic⟩
  simp [bind_eq_panicked, RobustEcdsa.rerandomizePresign, rerandomizationFactor_ne_panicked,
    RobustEcdsa.sign_ne_panicked] at hpanic

theorem EcdsaSignatureProvider.makeSignatureFollowerGivenRequest_panics_iff
    (hopened : channel.Opened surroundings.transport) {request} :
    (makeSignatureFollowerGivenRequest client surroundings channel presignatureId request).Panics
        db ↔
      SigningReady surroundings client.curve client.ecdsaKeyshares client.presignatureStore db
          channel.leader channel.participants request presignatureId ∧
        ¬ channel.participants.Nodup := by
  unfold makeSignatureFollowerGivenRequest
  simp only [Effect.monadLift_eq, Effect.lift_bind_panics, keyshareOf, okOr_ne_panicked, okOr_eq_ok,
    false_or, beforeComputation_ne_panicked hopened, beforeComputation_eq_ok hopened]
  simp only [Effect.bind_panics, takeUnowned_panics, Effect.lift_panics, false_or,
    signComputation_panicked_iff, Effect.pure_panics, and_false, exists_false, or_false,
    signingReady_iff, exists_const, ← and_assoc, exists_and_right]

theorem exists_translateThreshold_iff {threshold numberOfParticipants} :
    (∃ maxMalicious, translateThreshold threshold numberOfParticipants = .ok maxMalicious) ↔
      threshold ≤ numberOfParticipants ∧ 5 ≤ threshold := by
  simp [translateThreshold, getNumberOfSigners, bind_eq_ok, require_eq_ok]

variable {id : SignatureId}

/-- The task signs, and its follower has everything it needs to build the participant list. -/
def StartsSigning (client : MpcClient F G EddsaKeys CkdKeys ElementG1)
    (surroundings : Surroundings) (db : SecretDB (StoredValue F G))
    (leader : ParticipantId) (participants : List ParticipantId) : MpcTaskId → Prop
  | .ecdsaTaskId (.signature id presignatureId) =>
      ∃ request, surroundings.signRequest id = some request ∧
        SigningReady surroundings client.curve client.ecdsaKeyshares client.presignatureStore db
          leader participants request presignatureId
  | .robustEcdsaTaskId (.signature id presignatureId) =>
      (client.threshold ≤ client.numberOfParticipants ∧ 5 ≤ client.threshold) ∧
        ∃ request, surroundings.signRequest id = some request ∧
          SigningReady surroundings client.curve client.robustEcdsaKeyshares
            client.robustPresignatureStore db leader participants request presignatureId
  | .verifyForeignTxTaskId (.verifyForeignTx id presignatureId) =>
      ∃ request index hash, surroundings.verifyForeignTxRequest id = some request ∧
        participants.findIdx? (· = surroundings.transport.myParticipantId) = some index ∧
        surroundings.executeForeignChainRequest id index = .ok hash ∧
        SigningReady surroundings client.curve client.ecdsaKeyshares client.presignatureStore db
          leader participants (VerifyForeignTxProvider.buildSignatureRequest request hash)
          presignatureId
  | _ => False

section

variable (hopened : channel.Opened surroundings.transport)
include hopened

theorem RobustEcdsaSignatureProvider.makeSignatureFollower_panics_iff :
    (makeSignatureFollower client surroundings channel id presignatureId).Panics db ↔
      StartsSigning client surroundings db channel.leader channel.participants
          (.robustEcdsaTaskId (.signature id presignatureId)) ∧
        ¬ channel.participants.Nodup := by
  unfold makeSignatureFollower
  simp only [Effect.monadLift_eq, Effect.lift_bind_panics, keyshareOf, okOr_ne_panicked, okOr_eq_ok,
    false_or, beforeComputation_ne_panicked hopened, beforeComputation_eq_ok hopened,
    translateThreshold_ne_panicked]
  simp only [Effect.bind_panics, takeUnowned_panics, Effect.lift_panics, false_or,
    signComputation_panicked_iff, Effect.pure_panics, and_false, exists_false, or_false]
  rw [StartsSigning, ← exists_translateThreshold_iff]
  simp only [signingReady_iff]
  constructor
  · rintro ⟨request, hrequest, keygenOut, hkeys, maxMalicious, htranslated, hash, hpayload, -,
      hconnects, after, record, htaken, htweak, hhash, hduplicates⟩
    exact ⟨⟨⟨maxMalicious, htranslated⟩, request, hrequest, keygenOut, hkeys, hash, hpayload,
      hconnects, after, record, htaken, htweak, hhash⟩, hduplicates⟩
  · rintro ⟨⟨⟨maxMalicious, htranslated⟩, request, hrequest, keygenOut, hkeys, hash, hpayload,
      hconnects, after, record, htaken, htweak, hhash⟩, hduplicates⟩
    exact ⟨request, hrequest, keygenOut, hkeys, maxMalicious, htranslated, hash, hpayload, (),
      hconnects, after, record, htaken, htweak, hhash, hduplicates⟩

theorem EcdsaSignatureProvider.makeSignatureFollower_panics_iff :
    (makeSignatureFollower client surroundings channel id presignatureId).Panics db ↔
      StartsSigning client surroundings db channel.leader channel.participants
          (.ecdsaTaskId (.signature id presignatureId)) ∧
        ¬ channel.participants.Nodup := by
  unfold makeSignatureFollower
  simp only [Effect.monadLift_eq, Effect.lift_bind_panics, okOr_ne_panicked, okOr_eq_ok, false_or,
    makeSignatureFollowerGivenRequest_panics_iff hopened, StartsSigning, ← and_assoc,
    exists_and_right]

theorem VerifyForeignTxProvider.makeVerifyForeignTxFollower_panics_iff :
    (makeVerifyForeignTxFollower client surroundings channel id presignatureId).Panics db ↔
      StartsSigning client surroundings db channel.leader channel.participants
          (.verifyForeignTxTaskId (.verifyForeignTx id presignatureId)) ∧
        ¬ channel.participants.Nodup := by
  unfold makeVerifyForeignTxFollower
  simp only [Effect.monadLift_eq, Effect.lift_bind_panics, okOr_ne_panicked, okOr_eq_ok, false_or,
    StartsSigning, hopened.mine]
  constructor
  · rintro ⟨request, hrequest, index, hindex, hpanics⟩
    cases hhash : surroundings.executeForeignChainRequest id index with
    | error => simp [hhash] at hpanics
    | ok hash =>
      simp only [hhash] at hpanics
      rw [makeSignatureFollowerGivenRequest_panics_iff hopened] at hpanics
      exact ⟨⟨request, index, hash, hrequest, hindex, hhash, hpanics.1⟩, hpanics.2⟩
  · rintro ⟨⟨request, index, _, hrequest, hindex, hhash, hready⟩, hduplicates⟩
    refine ⟨request, hrequest, index, hindex, ?_⟩
    simp only [hhash]
    rw [makeSignatureFollowerGivenRequest_panics_iff hopened]
    exact ⟨hready, hduplicates⟩

end

/-! ### The whole set-up -/

/-- The set-up of an opened channel panics exactly when it gets to sign for a list with a
participant twice. -/
theorem setUp_panics_iff (client : MpcClient F G EddsaKeys CkdKeys ElementG1)
    (db : SecretDB (StoredValue F G)) (hopened : channel.Opened surroundings.transport) :
    (setUp client surroundings channel).Panics db ↔
      StartsSigning client surroundings db channel.leader channel.participants channel.taskId ∧
        ¬ channel.participants.Nodup := by
  unfold setUp
  cases channel.taskId with
  | eddsaTaskId =>
    simp [StartsSigning, EddsaSignatureProvider.processChannel_ne_panicked hopened]
  | ckdTaskId => simp [StartsSigning, CkdProvider.processChannel_ne_panicked hopened]
  | verifyForeignTxTaskId task =>
    cases task with
    | verifyForeignTx =>
      exact VerifyForeignTxProvider.makeVerifyForeignTxFollower_panics_iff hopened
  | ecdsaTaskId task =>
    cases task with
    | keyGeneration | keyResharing => simp [processChannel, StartsSigning]
    | manyTriples start count =>
      simpa [processChannel, StartsSigning] using
        runTripleGenerationFollower_panics hopened start count
    | presignature id domainId pairedTripleId =>
      simpa [processChannel, StartsSigning] using
        runPresignatureGenerationFollower_panics hopened id domainId
          pairedTripleId
    | signature =>
      exact makeSignatureFollower_panics_iff hopened
  | robustEcdsaTaskId task =>
    cases task with
    | keyGeneration | keyResharing =>
      simp [RobustEcdsaSignatureProvider.processChannel, StartsSigning]
    | presignature id domainId =>
      simpa [RobustEcdsaSignatureProvider.processChannel, StartsSigning] using
        RobustEcdsaSignatureProvider.runPresignatureGenerationFollower_panics hopened id domainId
    | signature =>
      exact RobustEcdsaSignatureProvider.makeSignatureFollower_panics_iff hopened

/-! ### Handling a start message -/

variable {lru : LruCache ChannelId (List MpcPeerMessage)}

/-- What the start of a task acts on. -/
structure NodeState (lru : LruCache ChannelId (List MpcPeerMessage)) (F G : Type) where
  network : MeshNetworkClient lru
  db : SecretDB (StoredValue F G)

/-- Handles a message and sets up the task whose channel it opens, if any. A set-up that fails
drops the channel. -/
def handleStart (client : MpcClient F G EddsaKeys CkdKeys ElementG1)
    (surroundings : Surroundings) (message : MpcPeerMessage) :
    Effect (NodeState lru F G) NodeError
      (Option (FollowerProtocol F G EddsaKeys CkdKeys ElementG1)) := fun node ↦
  match MeshNetworkClient.runReceiveMessage surroundings.transport message node.network with
  | (network, .panicked) => ({ node with network }, .panicked)
  | (network, .err failure) => ({ node with network }, .err failure)
  | (network, .ok none) => ({ node with network }, .ok none)
  | (network, .ok (some channel)) =>
      match setUp client surroundings channel node.db with
      | (db, .ok protocol) => ({ network, db }, .ok (some protocol))
      | (db, .err failure) =>
          ({ network := network.dropChannel channel.channelId, db }, .err failure)
      | (db, .panicked) => ({ network, db }, .panicked)

section HandleStart

variable {message : MpcPeerMessage} {start : MpcStartMessage} {node : NodeState lru F G}

/-- A start message for a channel that is alive is delivered to it. -/
theorem handleStart_of_live (hreachable : node.network.Reachable)
    (hlive : message.message.channelId ∈ node.network.liveIds) :
    ¬ (handleStart client surroundings message).Panics node ∧
      (handleStart client surroundings message node).1.network.Backed := by
  have hdelivered := hreachable.backed.runReceiveMessage_live surroundings.transport hlive
  have hpanics : ¬ (MeshNetworkClient.runReceiveMessage surroundings.transport message).Panics
      node.network := by
    rw [Effect.Panics, hdelivered]
    simp
  have hbacked := hreachable.backed.runReceiveMessage hpanics
  rw [hdelivered] at hbacked
  rw [Effect.Panics, handleStart, hdelivered]
  exact ⟨by simp, hbacked⟩

/-- A start message that lists someone who is not a peer panics. -/
theorem handleStart_panics_of_not_knows
    (client : MpcClient F G EddsaKeys CkdKeys ElementG1)
    (hreachable : node.network.Reachable) (hkind : message.message.kind = .start start)
    (hlive : message.message.channelId ∉ node.network.liveIds)
    (hknows : ¬ surroundings.transport.Knows start.participants) :
    (handleStart client surroundings message).Panics node := by
  have hpanics := hreachable.backed.runReceiveMessage_panicked hkind hlive hknows
  rw [Effect.Panics] at hpanics
  rcases houtcome : MeshNetworkClient.runReceiveMessage surroundings.transport message
    node.network with ⟨network, outcome⟩
  rw [houtcome] at hpanics
  rw [Effect.Panics, handleStart, houtcome]
  simp only at hpanics
  rw [hpanics]

/-- A start message that lists peers only opens the channel of its task. -/
theorem MeshNetworkClient.Reachable.opens {network transport} (hreachable : network.Reachable)
    (hkind : message.message.kind = .start start)
    (hlive : message.message.channelId ∉ network.liveIds)
    (hknows : transport.Knows start.participants) :
    ∃ (after : MeshNetworkClient lru) (channel : NetworkTaskChannel),
      runReceiveMessage transport message network = (after, .ok (some channel)) ∧
        after.Backed ∧ channel ∈ after.live ∧ channel.Opened transport ∧
        channel.leader = message.sender ∧ channel.participants = start.participants ∧
        channel.taskId = start.taskId := by
  obtain ⟨versions, receiver, hversions, hopen⟩ :=
    hreachable.backed.runReceiveMessage_start hkind hlive hknows
  refine ⟨_, channelOf transport message start versions receiver, hopen, ?_, List.mem_cons_self,
    ⟨rfl, hknows, hversions⟩, rfl, rfl, rfl⟩
  exact hreachable.backed.started (channelOf transport message start versions receiver)

/-- A start message that lists peers only panics exactly when its set-up does, and otherwise keeps
the invariant of the client: the channel is alive, or it has been dropped. -/
theorem handleStart_of_knows (client : MpcClient F G EddsaKeys CkdKeys ElementG1)
    (hreachable : node.network.Reachable) (hkind : message.message.kind = .start start)
    (hlive : message.message.channelId ∉ node.network.liveIds)
    (hknows : surroundings.transport.Knows start.participants) :
    ((handleStart client surroundings message).Panics node ↔
      StartsSigning client surroundings node.db message.sender start.participants start.taskId ∧
        ¬ start.participants.Nodup) ∧
    (¬ (handleStart client surroundings message).Panics node →
      (handleStart client surroundings message node).1.network.Backed) := by
  obtain ⟨_, channel, hopen, hbacked, hmem, hopened, hleader, hmembers, htask⟩ :=
    hreachable.opens hkind hlive hknows
  have hsetUp := setUp_panics_iff client node.db hopened
  rw [hleader, hmembers, htask, Effect.Panics] at hsetUp
  rw [← hsetUp, Effect.Panics, handleStart, hopen]
  rcases houtcome : setUp client surroundings channel node.db with ⟨db, outcome⟩
  cases outcome with
  | ok =>
    simp only [houtcome]
    exact ⟨by simp, fun _ ↦ hbacked⟩
  | err =>
    simp only [houtcome]
    exact ⟨by simp, fun _ ↦ hbacked.dropChannel (List.mem_map_of_mem hmem)⟩
  | panicked =>
    simp [houtcome]

/-- Handling a start message does not panic and leaves every sender with a channel, exactly when
the channel is alive already, or the message lists peers only and, if the task gets to sign, no
participant twice. -/
theorem start_handled_safely_iff (hreachable : node.network.Reachable)
    (hkind : message.message.kind = .start start) :
    (¬ (handleStart client surroundings message).Panics node ∧
      (handleStart client surroundings message node).1.network.Backed) ↔
    message.message.channelId ∈ node.network.liveIds ∨
      surroundings.transport.Knows start.participants ∧
        (StartsSigning client surroundings node.db message.sender start.participants
          start.taskId → start.participants.Nodup) := by
  by_cases hlive : message.message.channelId ∈ node.network.liveIds
  · simp only [hlive, true_or, iff_true]
    exact handleStart_of_live hreachable hlive
  by_cases hknows : surroundings.transport.Knows start.participants
  · obtain ⟨hpanics, hbacked⟩ := handleStart_of_knows client hreachable hkind hlive hknows
    simp only [hlive, hknows, false_or, true_and]
    rw [hpanics] at hbacked ⊢
    tauto
  · have hpanics := handleStart_panics_of_not_knows client hreachable hkind hlive hknows
    simp only [hlive, hknows, hpanics, not_true_eq_false, false_and, or_self]

end HandleStart

end

/-! ### Lists that a peer can choose -/

namespace FiveNodes

/-- Node 3, with a presignature of node 2 in its database. -/
def node : NodeState boundedLru (ZMod 3) (ZMod 3) where
  network := MeshNetworkClient.new
  db := SecretDB.empty.put .presignature
    (((client 3).robustPresignatureStore 0).makeKey (UniqueId.new 2 7 0)) (record 1)

variable (participants : List ParticipantId)

/-- Node 2 starts a signature with the listed participants. -/
def signStart : MpcStartMessage where
  taskId := .robustEcdsaTaskId (.signature [1] (UniqueId.new 2 7 0))
  participants

def startMessage : MpcPeerMessage where
  sender := 2
  message := { channelId := UniqueId.new 2 9 0, kind := .start (signStart participants) }

theorem start_handled_safely_witness :
    ¬ (handleStart (client 3) (surroundings 3) (startMessage [1, 2, 3, 4, 5])).Panics node ∧
      (handleStart (client 3) (surroundings 3) (startMessage [1, 2, 3, 4, 5])
        node).1.network.Backed :=
  (start_handled_safely_iff MeshNetworkClient.Reachable.new rfl).mpr
    (.inr ⟨by decide +kernel, fun _ ↦ by decide +kernel⟩)

/-- A list with a participant who is not a peer, and a list with a participant twice, end the node
with a panic; the first also leaves a sender without a channel. -/
theorem chosen_lists_panic :
    (handleStart (client 3) (surroundings 3) (startMessage [2, 3, 9])).Panics node ∧
      ¬ (handleStart (client 3) (surroundings 3) (startMessage [2, 3, 9]) node).1.network.Backed ∧
      (handleStart (client 3) (surroundings 3) (startMessage [1, 2, 3, 4, 5, 5])).Panics node := by
  refine ⟨rfl, fun hbacked ↦ ?_, rfl⟩
  have hsender := (hbacked.senders (UniqueId.new 2 9 0)).mp (by decide +kernel)
  exact absurd hsender (by decide +kernel)

end FiveNodes

end NearMpc.Node
