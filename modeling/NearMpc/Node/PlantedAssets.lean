import NearMpc.Node.Followers

/-!
# The assets that a leader plants

Which records of its database a follower creates or overwrites in a task that a peer leads. The
ids of these records come from the start message and from nowhere else: a presignature is recorded
under the id that the message names, the pairs of a triple batch under the ids that count up from
it. Nothing ties these ids to the leader: a follower that accepts the task records assets of the
leader only exactly if the id that the message names is one of the leader
(`planted_under_leader_iff`).

`CreatesOnly` is the frame of a follower: outside the given keys it deletes records at most.
-/

set_option autoImplicit false

namespace NearMpc.Node

open Library Library.Outcome NearMpc.Threshold

variable {F G EddsaKeys CkdKeys ElementG1 : Type}

/-! ### What a task names -/

namespace MpcTaskId

/-- The id in the start message of a task that produces assets. -/
def namedId : MpcTaskId → Option UniqueId
  | .ecdsaTaskId (.manyTriples start _) => some start
  | .ecdsaTaskId (.presignature id _ _) => some id
  | .robustEcdsaTaskId (.presignature id _) => some id
  | _ => none

/-- The ids of the assets that a task produces. -/
def producedIds : MpcTaskId → List UniqueId
  | .ecdsaTaskId (.manyTriples start _) => start.batch (supportedTripleGenerationBatchSize / 2)
  | .ecdsaTaskId (.presignature id _ _) => [id]
  | .robustEcdsaTaskId (.presignature id _) => [id]
  | _ => []

variable (client : MpcClient F G EddsaKeys CkdKeys ElementG1)

/-- Where an asset that a task produces is recorded. -/
def recordKey (id : UniqueId) :
    MpcTaskId → Option (DBCol × DBKey)
  | .ecdsaTaskId (.manyTriples _ _) => some (.triple, client.tripleStore.makeKey id)
  | .ecdsaTaskId (.presignature _ domainId _) =>
      some (.presignature, (client.presignatureStore domainId).makeKey id)
  | .robustEcdsaTaskId (.presignature _ domainId) =>
      some (.presignature, (client.robustPresignatureStore domainId).makeKey id)
  | _ => none

/-- The record belongs to an asset that the task produces. -/
def Produces (task : MpcTaskId) (col : DBCol) (key : DBKey) : Prop :=
  ∃ id ∈ task.producedIds, task.recordKey client id = some (col, key)

/-- An asset has the participant of the id that the task names. -/
theorem exists_namedId_of_mem_producedIds {task : MpcTaskId} {id : UniqueId}
    (hid : id ∈ task.producedIds) :
    ∃ named, task.namedId = some named ∧ id.participantId = named.participantId := by
  unfold producedIds at hid
  split at hid
  · exact ⟨_, rfl, UniqueId.participantId_of_mem_batch hid⟩
  · exact ⟨_, rfl, by rw [List.mem_singleton.mp hid]⟩
  · exact ⟨_, rfl, by rw [List.mem_singleton.mp hid]⟩
  · cases hid

variable {client} in
/-- A record belongs to one id. -/
theorem recordKey_inj {task : MpcTaskId} {id other : UniqueId} {place : DBCol × DBKey}
    (hid : task.recordKey client id = some place)
    (hother : task.recordKey client other = some place) : id = other := by
  have hsame := hid.trans hother.symm
  match task, hid, hsame with
  | .ecdsaTaskId (.manyTriples _ _), _, hsame =>
    exact client.tripleStore.makeKey_injective (congrArg Prod.snd (Option.some.inj hsame))
  | .ecdsaTaskId (.presignature _ domainId _), _, hsame =>
    exact (client.presignatureStore domainId).makeKey_injective
      (congrArg Prod.snd (Option.some.inj hsame))
  | .robustEcdsaTaskId (.presignature _ domainId), _, hsame =>
    exact (client.robustPresignatureStore domainId).makeKey_injective
      (congrArg Prod.snd (Option.some.inj hsame))

end MpcTaskId

/-! ### The frame of a follower -/

/-- A record that is there after but not before is under one of the given keys. -/
def CreatesOnly {Value : Type} (created : DBCol → DBKey → Prop)
    (before after : SecretDB Value) : Prop :=
  ∀ col key value, after.get col key = some value →
    before.get col key = some value ∨ created col key

section CreatesOnly

variable {Value T : Type} {created : DBCol → DBKey → Prop}

theorem CreatesOnly.refl (db : SecretDB Value) : CreatesOnly created db db :=
  fun _ _ _ hget ↦ .inl hget

theorem CreatesOnly.trans (first middle last : SecretDB Value)
    (hfirst : CreatesOnly created first middle) (hlast : CreatesOnly created middle last) :
    CreatesOnly created first last := by
  intro col key value hget
  rcases hlast col key value hget with hmiddle | hcreated
  · exact hfirst col key value hmiddle
  · exact .inr hcreated

theorem createsOnly_put {config : AssetStoreConfig Value T} {id : UniqueId} {value : T}
    (hcreated : created config.col (config.makeKey id)) :
    (config.addUnowned id value).Within (CreatesOnly created) := by
  refine .modify fun db col key other hget ↦ ?_
  by_cases hcol : config.col = col
  · subst hcol
    rw [SecretDB.get_put] at hget
    by_cases hkey : config.makeKey id = key
    · exact .inr (hkey ▸ hcreated)
    · rw [if_neg hkey] at hget
      exact .inl hget
  · rw [SecretDB.get_put_of_ne_col _ hcol] at hget
    exact .inl hget

theorem createsOnly_takeUnowned (config : AssetStoreConfig Value T) (id : UniqueId) :
    (config.takeUnowned id).Within (CreatesOnly created) := by
  intro _ col _ _ hget
  refine .inl ?_
  unfold AssetStoreConfig.takeUnowned at hget
  split at hget
  · exact hget
  · by_cases hcol : config.col = col
    · subst hcol
      rw [SecretDB.get_delete] at hget
      split_ifs at hget
      exact hget
    · rwa [SecretDB.get_delete_of_ne_col _ hcol] at hget

end CreatesOnly

section Records

variable {created : DBCol → DBKey → Prop}
  (client : MpcClient F G EddsaKeys CkdKeys ElementG1) (channel : NetworkTaskChannel)
  (results : ProtocolResults F G)

/-! ### Only what the task names is created -/

/-- A protocol belongs to the task that names its records. -/
def FollowerProtocol.BelongsTo (task : MpcTaskId) :
    FollowerProtocol F G EddsaKeys CkdKeys ElementG1 → Prop
  | .manyTriples start _ => ∃ count, task = .ecdsaTaskId (.manyTriples start count)
  | .presignature domainId id _ =>
      ∃ pairedTripleId, task = .ecdsaTaskId (.presignature id domainId pairedTripleId)
  | .robustPresignature domainId id _ => task = .robustEcdsaTaskId (.presignature id domainId)
  | .robustSignature presignatureId _ _ _ =>
      ∃ id, task = .robustEcdsaTaskId (.signature id presignatureId)
  | _ => task.namedId = none

theorem length_pairUp {Triple : Type} (triples : List Triple) :
    (pairUp triples).length = triples.length / 2 := by
  fun_induction pairUp triples with
  | case1 _ _ _ ih =>
    simp only [List.length_cons, ih]
    omega
  | case2 triples hshort =>
    match triples, hshort with
    | [], _ => simp
    | [_], _ => simp
    | first :: second :: rest, hshort => exact absurd rfl (hshort first second rest)

/-- The pairs of a batch are recorded under the ids of the batch. -/
theorem createsOnly_storeTriples (start : UniqueId) (count : ℕ)
    (hcreated : ∀ id ∈ start.batch count, created .triple (client.tripleStore.makeKey id))
    (index : ℕ) (pairs : List (PairedTriple F G)) (hbound : index + pairs.length ≤ count) :
    (storeTriples client start index pairs).Within (CreatesOnly created) := by
  induction pairs generalizing index with
  | nil => exact .lift .refl (.ok ())
  | cons _ _ ih =>
    rw [List.length_cons] at hbound
    refine .bind_returns (fun id ↦ id ∈ start.batch count) .trans
      (.lift .refl _) ?_ fun id hid ↦ ?_
    · exact .lift fun id hok ↦ UniqueId.mem_batch.mpr ⟨index, by omega, hok⟩
    · exact .bind .trans (createsOnly_put (hcreated id hid)) fun _ ↦
        ih (index + 1) (by omega)

/-- What a follower stores is what its task produces. -/
theorem createsOnly_complete (protocol : FollowerProtocol F G EddsaKeys CkdKeys ElementG1)
    (hbelongs : protocol.BelongsTo channel.taskId) :
    (complete client channel results protocol).Within
      (CreatesOnly (channel.taskId.Produces client)) := by
  cases protocol with
  | manyTriples start =>
    obtain ⟨_, htask⟩ := hbelongs
    refine .bind .trans (.lift .refl _) fun triples ↦ ?_
    refine .bind_returns
      (fun _ ↦ triples.length = supportedTripleGenerationBatchSize) .trans
      (.lift .refl _) ?_ fun _ hlength ↦ ?_
    · exact .lift fun _ hok ↦ (guardPanic_eq_ok.mp hok).symm
    · refine createsOnly_storeTriples client start (supportedTripleGenerationBatchSize / 2) ?_ 0 _
        ?_
      · intro id hid
        rw [htask]
        exact ⟨id, hid, rfl⟩
      · rw [length_pairUp, hlength, zero_add]
  | presignature _ id =>
    obtain ⟨_, htask⟩ := hbelongs
    refine .bind .trans (.lift .refl _) fun presignature ↦ createsOnly_put ?_
    rw [htask]
    exact ⟨id, List.mem_singleton_self id, rfl⟩
  | robustPresignature _ id =>
    refine .bind .trans (.lift .refl _) fun presignature ↦ createsOnly_put ?_
    rw [show channel.taskId = _ from hbelongs]
    exact ⟨id, List.mem_singleton_self id, rfl⟩
  | signature | robustSignature | eddsaSignature | ckd => exact .lift .refl _

/-! ### What a task records -/

variable {client channel} in
/-- Storing a pair again leaves it where it is. -/
theorem get_storeTriples {start pair key} (index n : ℕ) {db}
    (hget : db.get .triple key = some (.pairedTriple pair)) :
    (storeTriples client start index (List.replicate n pair) db).1.get .triple key =
      some (.pairedTriple pair) := by
  induction n generalizing index db with
  | zero => exact hget
  | succ n ih =>
    rw [List.replicate_succ, storeTriples]
    cases hid : start.addToCounter (UInt32.ofNat index) with
    | ok id =>
      refine @ih (index + 1)
        (db.put .triple (client.tripleStore.makeKey id) (.pairedTriple pair)) ?_
      rw [SecretDB.get_put, hget, ite_self]
    | err | panicked => exact hget

/-- What the protocol records depends on its result, and is recorded under an id with the
participant of the given one. -/
def RecordsUnder (named : UniqueId) (db : SecretDB (StoredValue F G))
    (protocol : FollowerProtocol F G EddsaKeys CkdKeys ElementG1) : Prop :=
  ∃ (id : UniqueId) (col : DBCol) (key : DBKey) (value : F → StoredValue F G)
    (results : F → ProtocolResults F G),
    id.participantId = named.participantId ∧
    channel.taskId.recordKey client id = some (col, key) ∧ Function.Injective value ∧
    ∀ k, (complete client channel (results k) protocol db).1.get col key = some (value k)

variable {client channel} in
theorem recordsUnder_of_addUnowned {T : Type} (config : AssetStoreConfig (StoredValue F G) T)
    {protocol id db} (output : F → T) (results : F → ProtocolResults F G)
    (hkey : channel.taskId.recordKey client id = some (config.col, config.makeKey id))
    (houtput : Function.Injective fun k ↦ config.codec.toValue (output k))
    (hcomplete : ∀ k, complete client channel (results k) protocol db =
      config.addUnowned id (output k) db) : RecordsUnder client channel id db protocol := by
  refine ⟨id, _, _, _, results, rfl, hkey, houtput, fun k ↦ ?_⟩
  rw [hcomplete k, AssetStoreConfig.addUnowned, Effect.modify_apply, SecretDB.get_put, if_pos rfl]

variable {client channel} [Field F] [AddCommGroup G]

/-- The protocol of a task that names an id records an asset with the participant of that id. -/
theorem recordsUnder_of_belongsTo {protocol} (hbelongs : protocol.BelongsTo channel.taskId) {named}
    (hnamed : channel.taskId.namedId = some named) (db : SecretDB (StoredValue F G)) :
    RecordsUnder client channel named db protocol := by
  cases protocol with
  | manyTriples start =>
    obtain ⟨count, htask⟩ := hbelongs
    obtain rfl : start = named := Option.some.inj (by rw [← hnamed, htask]; rfl)
    obtain ⟨id, hid⟩ : ∃ id, start.addToCounter (UInt32.ofNat 0) = .ok id := by
      simp [UniqueId.addToCounter, checkedAdd, okOr, start.counter.toNat_lt]
    let triple (k : F) : OtBasedEcdsa.TripleGenerationOutput F G :=
      (⟨k, 0, 0⟩, ⟨0, 0, 0, [], ⟨0⟩⟩)
    refine ⟨id, .triple, client.tripleStore.makeKey id, fun k ↦ .pairedTriple (triple k, triple k),
      fun k ↦ ⟨.ok (List.replicate 64 (triple k)), .panicked, .panicked, .panicked⟩,
      UniqueId.participantId_addToCounter hid, by rw [htask]; rfl, ?_, fun k ↦ ?_⟩
    · intro k other hsame
      simpa [triple] using hsame
    · change (storeTriples client start 0 ((triple k, triple k) ::
        List.replicate 31 (triple k, triple k)) db).1.get _ _ = _
      rw [storeTriples, hid]
      exact get_storeTriples 1 31 ((SecretDB.get_put ..).trans (if_pos rfl))
  | presignature domainId id =>
    obtain ⟨pairedTripleId, htask⟩ := hbelongs
    obtain rfl : id = named := Option.some.inj (by rw [← hnamed, htask]; rfl)
    refine recordsUnder_of_addUnowned (client.presignatureStore domainId)
      (fun k ↦ ⟨⟨0, k, 0⟩, channel.participants⟩)
      (fun k ↦ ⟨.panicked, .ok ⟨0, k, 0⟩, .panicked, .panicked⟩) (by rw [htask]; rfl) ?_
      fun _ ↦ rfl
    intro k other hsame
    simpa [MpcClient.presignatureStore, presignatureCodec] using hsame
  | robustPresignature domainId id =>
    have htask : channel.taskId = _ := hbelongs
    obtain rfl : id = named := Option.some.inj (by rw [← hnamed, htask]; rfl)
    refine recordsUnder_of_addUnowned (client.robustPresignatureStore domainId)
      (fun k ↦ ⟨⟨0, k, 0, 0, 0⟩, channel.participants⟩)
      (fun k ↦ ⟨.panicked, .panicked, .ok ⟨0, k, 0, 0, 0⟩, .panicked⟩) (by rw [htask]; rfl) ?_
      fun _ ↦ rfl
    intro k other hsame
    simpa [MpcClient.robustPresignatureStore, robustPresignatureCodec] using hsame
  | robustSignature =>
    obtain ⟨id, htask⟩ := hbelongs
    rw [htask] at hnamed
    cases hnamed
  | signature | eddsaSignature | ckd =>
    cases hnamed.symm.trans hbelongs

end Records

/-! ### Setting up creates nothing -/

section Followers

variable [Field F] [DecidableEq F] [AddCommGroup G] [Module F G]
  [DecidableEq G] {created : DBCol → DBKey → Prop}
  (client : MpcClient F G EddsaKeys CkdKeys ElementG1) (surroundings : Surroundings)
  (channel : NetworkTaskChannel) (results : ProtocolResults F G)

theorem createsOnly_makeSignatureFollowerGivenRequest (presignatureId : UniqueId)
    (request : SignatureRequest) :
    (EcdsaSignatureProvider.makeSignatureFollowerGivenRequest client surroundings channel
      presignatureId request).Within (CreatesOnly created) := by
  iterate 3 refine .bind .trans (.lift .refl _) fun _ ↦ ?_
  refine .bind .trans (createsOnly_takeUnowned _ _) fun _ ↦ ?_
  exact .bind .trans (.lift .refl _) fun _ ↦ .lift .refl _

theorem createsOnly_ecdsa (task : EcdsaTaskId) :
    (EcdsaSignatureProvider.processChannel client surroundings channel task).Within
      (CreatesOnly created) := by
  cases task with
  | keyGeneration | keyResharing => exact .lift .refl _
  | manyTriples =>
    iterate 4 refine .bind .trans (.lift .refl _) fun _ ↦ ?_
    exact .lift .refl _
  | presignature =>
    iterate 2 refine .bind .trans (.lift .refl _) fun _ ↦ ?_
    refine .bind .trans (createsOnly_takeUnowned _ _) fun _ ↦ ?_
    exact .bind .trans (.lift .refl _) fun _ ↦ .lift .refl _
  | signature _ presignatureId =>
    exact .bind .trans (.lift .refl _) fun request ↦
      createsOnly_makeSignatureFollowerGivenRequest client surroundings channel presignatureId
        request

variable (task : RobustEcdsaTaskId)

theorem createsOnly_robustEcdsa :
    (RobustEcdsaSignatureProvider.processChannel client surroundings channel task).Within
      (CreatesOnly created) := by
  cases task with
  | keyGeneration | keyResharing => exact .lift .refl _
  | presignature =>
    iterate 4 refine .bind .trans (.lift .refl _) fun _ ↦ ?_
    exact .lift .refl _
  | signature =>
    iterate 5 refine .bind .trans (.lift .refl _) fun _ ↦ ?_
    refine .bind .trans (createsOnly_takeUnowned _ _) fun _ ↦ ?_
    exact .bind .trans (.lift .refl _) fun _ ↦ .lift .refl _

theorem createsOnly_verifyForeignTx (task : VerifyForeignTxTaskId) :
    (VerifyForeignTxProvider.processChannel client surroundings channel task).Within
      (CreatesOnly created) := by
  cases task with
  | verifyForeignTx id presignatureId =>
    refine .bind .trans (.lift .refl _) fun request ↦ ?_
    refine .bind .trans (.lift .refl _) fun index ↦ ?_
    cases surroundings.executeForeignChainRequest id index with
    | error => exact .lift .refl _
    | ok =>
      exact createsOnly_makeSignatureFollowerGivenRequest client surroundings channel
        presignatureId _

/-- Before its protocol runs, a follower deletes records at most. -/
theorem createsOnly_setUp : (setUp client surroundings channel).Within (CreatesOnly created) := by
  unfold setUp
  split
  · exact createsOnly_ecdsa client surroundings channel _
  · exact .lift .refl _
  · exact .lift .refl _
  · exact createsOnly_robustEcdsa client surroundings channel _
  · exact createsOnly_verifyForeignTx client surroundings channel _

theorem belongsTo_makeSignatureFollowerGivenRequest {task} (hnamed : task.namedId = none)
    (presignatureId : UniqueId) (request : SignatureRequest) :
    (EcdsaSignatureProvider.makeSignatureFollowerGivenRequest client surroundings channel
      presignatureId request).Returns (FollowerProtocol.BelongsTo task) := by
  iterate 5 refine .bind fun _ ↦ ?_
  exact .pure hnamed

theorem belongsTo_ecdsa (task : EcdsaTaskId) :
    (EcdsaSignatureProvider.processChannel client surroundings channel task).Returns
      (FollowerProtocol.BelongsTo (.ecdsaTaskId task)) := by
  cases task with
  | keyGeneration | keyResharing => exact .lift fun _ hok ↦ by cases hok
  | manyTriples _ count =>
    iterate 4 refine .bind fun _ ↦ ?_
    exact .pure ⟨count, rfl⟩
  | presignature _ _ pairedTripleId =>
    iterate 4 refine .bind fun _ ↦ ?_
    exact .pure ⟨pairedTripleId, rfl⟩
  | signature _ presignatureId =>
    exact .bind fun request ↦
      belongsTo_makeSignatureFollowerGivenRequest client surroundings channel rfl presignatureId
        request

theorem belongsTo_robustEcdsa :
    (RobustEcdsaSignatureProvider.processChannel client surroundings channel task).Returns
      (FollowerProtocol.BelongsTo (.robustEcdsaTaskId task)) := by
  cases task with
  | keyGeneration | keyResharing => exact .lift fun _ hok ↦ by cases hok
  | presignature =>
    iterate 4 refine .bind fun _ ↦ ?_
    exact .pure rfl
  | signature id =>
    iterate 7 refine .bind fun _ ↦ ?_
    exact .pure ⟨id, rfl⟩

theorem belongsTo_setUp :
    (setUp client surroundings channel).Returns (FollowerProtocol.BelongsTo channel.taskId) := by
  unfold setUp
  split
  next task htask =>
    rw [htask]
    exact belongsTo_ecdsa client surroundings channel task
  next task htask =>
    refine .lift fun protocol hok ↦ ?_
    cases task with
    | keyGeneration | keyResharing => cases hok
    | signature =>
      simp only [EddsaSignatureProvider.processChannel,
        EddsaSignatureProvider.makeSignatureFollower, bind_eq_ok, pure_eq,
        ok.injEq] at hok
      obtain ⟨_, -, _, -, _, -, _, -, _, -, rfl⟩ := hok
      exact congrArg MpcTaskId.namedId htask
  next task htask =>
    refine .lift fun protocol hok ↦ ?_
    cases task with
    | keyGeneration | keyResharing => cases hok
    | ckd =>
      simp only [CkdProvider.processChannel, CkdProvider.makeCkdFollower, bind_eq_ok, pure_eq,
        ok.injEq] at hok
      obtain ⟨_, -, _, -, _, -, _, -, _, -, _, -, rfl⟩ := hok
      exact congrArg MpcTaskId.namedId htask
  next task htask =>
    rw [htask]
    exact belongsTo_robustEcdsa client surroundings channel task
  next task htask =>
    cases task with
    | verifyForeignTx id presignatureId =>
      refine .bind fun request ↦ .bind fun index ↦ ?_
      cases surroundings.executeForeignChainRequest id index with
      | error => exact .lift fun _ hok ↦ by cases hok
      | ok =>
        exact belongsTo_makeSignatureFollowerGivenRequest client surroundings channel
          (by rw [htask]; rfl) presignatureId _

theorem createsOnly_processChannelTask :
    (processChannelTask client surroundings channel results).Within
      (CreatesOnly (channel.taskId.Produces client)) :=
  .bind_returns _ .trans (createsOnly_setUp client surroundings channel)
    (belongsTo_setUp client surroundings channel) (createsOnly_complete client channel results)

/-- Every record that the task creates or overwrites belongs to the leader. -/
def PlantsOnlyOfLeader : Prop :=
  ∀ results db col key value,
    (processChannelTask client surroundings channel results db).1.get col key = some value →
    db.get col key = some value ∨
      ∃ id, channel.taskId.recordKey client id = some (col, key) ∧
        id.participantId = channel.leader

/-- A follower that cannot set up the protocol of a task creates no record. One that can, for some
database, records only assets of the leader exactly if the id named in the start message is one of
the leader. -/
theorem planted_under_leader_iff :
    ((∀ db after protocol, setUp client surroundings channel db ≠ (after, .ok protocol)) →
      ∀ results db, CreatesOnly (fun _ _ ↦ False) db
        (processChannelTask client surroundings channel results db).1) ∧
    ((∃ db after protocol, setUp client surroundings channel db = (after, .ok protocol)) →
      (PlantsOnlyOfLeader client surroundings channel ↔
        ∀ named ∈ channel.taskId.namedId, named.participantId = channel.leader)) := by
  refine ⟨fun hrefused results db ↦ ?_, ?_⟩
  · refine Effect.Within.bind_after .trans (createsOnly_setUp client surroundings channel) ?_ db
    exact fun state middle protocol hok ↦ absurd hok (hrefused state middle protocol)
  rintro ⟨db, after, protocol, haccepted⟩
  constructor
  · intro hplants named hnamed
    have hbelongs := belongsTo_setUp client surroundings channel _ _ _ haccepted
    obtain ⟨id, col, key, value, results, hid, hkey, hvalue, hget⟩ :=
      recordsUnder_of_belongsTo hbelongs hnamed after
    -- of two values one is not the one recorded before
    have hfresh : ∃ k, db.get col key ≠ some (value k) := by
      by_contra! hsame
      exact zero_ne_one (hvalue (Option.some.inj ((hsame 0).symm.trans (hsame 1))))
    obtain ⟨k, hfresh⟩ := hfresh
    have hrecorded : (processChannelTask client surroundings channel (results k) db).1.get col key =
        some (value k) := by
      rw [processChannelTask, Effect.bind_of_ok haccepted]
      exact hget k
    obtain ⟨other, hother, hleader⟩ :=
      (hplants (results k) db col key (value k) hrecorded).resolve_left hfresh
    rw [← hid, MpcTaskId.recordKey_inj hkey hother, hleader]
  · intro hleader results db col key value hget
    refine (createsOnly_processChannelTask client surroundings channel results db col key value
      hget).imp_right ?_
    rintro ⟨id, hid, hkey⟩
    obtain ⟨named, hnamed, hsame⟩ := MpcTaskId.exists_namedId_of_mem_producedIds hid
    exact ⟨id, hkey, hsame.trans (hleader named hnamed)⟩

end Followers

/-! ### Five nodes with one robust domain -/

namespace FiveNodes

/-- A curve of three points. A scalar is one byte. -/
def curve : Curve (ZMod 3) (ZMod 3) where
  generator := 1
  xCoordinate := id
  fromRepr
    | [byte] => some (byte.toNat : ZMod 3)
    | _ => none
  deriveRandomness := fun _ ↦ some 1

/-- Node `me` of five. Domain 0 is robust. -/
def client (me : ParticipantId) : MpcClient (ZMod 3) (ZMod 3) Unit Unit Unit where
  myParticipantId := me
  threshold := 5
  numberOfParticipants := 5
  curve := curve
  ecdsaKeyshares := fun _ ↦ none
  robustEcdsaKeyshares := fun domainId ↦
    if domainId = 0 then some { privateShare := 1, publicKey := 1 } else none
  eddsaKeyshares := fun _ ↦ none
  ckdKeyshares := fun _ ↦ none
  deriveEddsaKeys := fun _ keys ↦ keys
  decodeElementG1 := fun _ ↦ none

/-- Everyone is connected. Request `[n]` is to sign the hash `[n]` in domain 0. -/
def surroundings (me : ParticipantId) : Surroundings where
  transport :=
    { myParticipantId := me
      connectivities := fun id ↦
        if id ∈ [1, 2, 3, 4, 5] then some { outgoing := 1, incoming := 1 } else none }
  signRequest := fun id ↦ some { payload := .ecdsa id, tweak := [1], entropy := id, domain := 0 }
  ckdRequest := fun _ ↦ none
  verifyForeignTxRequest := fun _ ↦ none
  executeForeignChainRequest := fun _ _ ↦ .error "no provider"
  waitForConnection := fun _ _ ↦ none

/-- The channel of a task that `leader` starts with everyone. -/
def channel (leader me : ParticipantId) (taskId : MpcTaskId) : NetworkTaskChannel where
  channelId := UniqueId.new leader 1 0
  taskId := taskId
  leader := leader
  myParticipantId := me
  participants := [1, 2, 3, 4, 5]
  connectionVersions := ([1, 2, 3, 4, 5].filter (· ≠ me)).map fun id ↦
    (id, { outgoing := 1, incoming := 1 })
  receiver := []
  successfulParticipants := ∅

/-- A presignature of everyone. -/
def record (c : ZMod 3) : StoredValue (ZMod 3) (ZMod 3) :=
  .robustPresignature
    { presignature := { bigR := 1, c, e := 1, alpha := 1, beta := 1 }
      participants := [1, 2, 3, 4, 5] }

/-- Presigning gives the presignature `record 2`. -/
def results : ProtocolResults (ZMod 3) (ZMod 3) where
  triples := .err "not running"
  presignature := .err "not running"
  robustPresignature := .ok { bigR := 1, c := 2, e := 1, alpha := 1, beta := 1 }
  signature := .ok ()

def presign (id : UniqueId) : MpcTaskId := .robustEcdsaTaskId (.presignature id 0)

/-- An id of node 1. -/
def ownId : UniqueId := UniqueId.new 1 7 0

/-- The key of `ownId` in the presignature store of domain 0. -/
def ownKey : DBKey := ((client 1).robustPresignatureStore 0).makeKey ownId

/-- A database in which node 1 has a presignature of its own. -/
def db : SecretDB (StoredValue (ZMod 3) (ZMod 3)) :=
  SecretDB.empty.put .presignature ownKey (record 1)

end FiveNodes

open FiveNodes in
/-- Node 1 starts the task, and names an id of its own. -/
theorem planted_under_leader_own :
    PlantsOnlyOfLeader (client 2) (surroundings 2) (channel 1 2 (presign ownId)) := by
  refine ((planted_under_leader_iff _ _ _).2 ?_).mpr (by decide +kernel)
  have hok : (setUp (client 2) (surroundings 2) (channel 1 2 (presign ownId))
      .empty).2.isOk = true := by decide +kernel
  rcases hsetUp : setUp (client 2) (surroundings 2) (channel 1 2 (presign ownId)) .empty with
    ⟨after, protocol | failure | _⟩
  · exact ⟨_, after, protocol, hsetUp⟩
  all_goals
    rw [hsetUp] at hok
    cases hok

open FiveNodes in
/-- Node 2 starts a task that names an id of node 1, and node 1 overwrites its own presignature. -/
theorem own_record_overwritten_by_leader :
    (channel 2 1 (presign ownId)).leader = 2 ∧ ownId.participantId = 1 ∧
      db.get .presignature ownKey = some (record 1) ∧
      (processChannelTask (client 1) (surroundings 1) (channel 2 1 (presign ownId)) results
        db).1.get .presignature ownKey = some (record 2) ∧
      record 1 ≠ record 2 := by
  decide +kernel

end NearMpc.Node
