import NearMpc.Node.IdReservation
import NearMpc.Node.PlantedAssets

/-!
# Cleanup of stale assets

When a node enters the running state it compares the epoch and the participants with those it has
recorded. In a new epoch it deletes all triples and presignatures. In the same epoch it deletes the
assets it owns that involve a participant with a new TLS key. Follows `assets/cleanup.rs`,
`clean_db` of `assets.rs` and `delete_all` of `db.rs`.

Within an epoch nothing is deleted unless some current participant has a new TLS key; a participant
that has merely left is not noticed. The presignatures of every domain are read as presignatures of
the OT based scheme, so that an own presignature of the robust scheme makes the cleanup fail.
-/

set_option autoImplicit false

namespace NearMpc.Node

open Library Library.Outcome NearMpc.Threshold AssetStoreConfig SecretDB
open Std (TreeMap)

variable {Value T F G EddsaKeys CkdKeys ElementG1 : Type}

/-! ### Epoch data -/

/-- What the cleanup uses of the configuration of a participant. -/
structure PeerInfo where
  id : ParticipantId
  p2pPublicKey : List UInt8
deriving DecidableEq

structure EpochData where
  epochId : UInt64
  participants : List PeerInfo
deriving DecidableEq

def EpochData.getInfo (self : EpochData) (id : ParticipantId) : Option PeerInfo :=
  self.participants.find? fun participant ↦ participant.id = id

/-- The JSON form of epoch data. -/
structure EpochDataCodec where
  toBytes : EpochData → List UInt8
  fromBytes : List UInt8 → Option EpochData

inductive EpochDataWrapper where
  | legacy (epochId : UInt64)
  | current (data : EpochData)
deriving DecidableEq

def EpochDataWrapper.epochId : EpochDataWrapper → UInt64
  | legacy epochId => epochId
  | current data => data.epochId

/-- The bytes of `EPOCH_ID`. -/
def epochIdKey : DBKey := [69, 80, 79, 67, 72, 95, 73, 68]

def getEpochData (codec : EpochDataCodec) (db : SecretDB (StoredValue F G)) :
    NodeResult (Option EpochDataWrapper) :=
  match db.get .epochData epochIdKey with
  | none => .ok none
  | some (.other bytes) =>
      match codec.fromBytes bytes with
      | some data => .ok (some (.current data))
      | none =>
          if bytes.length = 8 then
            .ok (some (.legacy (UInt64.ofNat (BigEndian.ofBytes bytes))))
          else .err "Can't deserialize EPOCH_ID entry"
  | some _ => .err "Can't deserialize EPOCH_ID entry"

inductive AssetCleanup where
  | keep
  | deleteAll
  | keepOnly (participants : List ParticipantId)
deriving DecidableEq

variable (previous current : EpochData)

/-- The current participants whose TLS key is not known to have changed. -/
def persistentParticipants : List ParticipantId :=
  current.participants.filterMap fun participant ↦
    match previous.getInfo participant.id with
    | none => some participant.id
    | some before =>
        if participant.p2pPublicKey = before.p2pPublicKey then some before.id else none

def cleanupBehavior : AssetCleanup :=
  if previous.epochId ≠ current.epochId then .deleteAll
  else if (persistentParticipants previous current).length ≠ current.participants.length then
    .keepOnly (persistentParticipants previous current)
  else .keep

def cleanupBehaviorDuringUpdate (previousEpochId currentEpochId : UInt64) : AssetCleanup :=
  if previousEpochId ≠ currentEpochId then .deleteAll else .keep

def assetCleanup (current : EpochData) : Option EpochDataWrapper → AssetCleanup
  | none => .keep
  | some (.legacy previousEpochId) => cleanupBehaviorDuringUpdate previousEpochId current.epochId
  | some (.current previous) => cleanupBehavior previous current

/-! ### Deletion -/

namespace SecretDB

variable (self : SecretDB Value) (col : DBCol)

/-- The records with the given keys are deleted. -/
def deleteKeys (keys : List DBKey) : SecretDB Value :=
  keys.foldl (fun db key ↦ db.delete col key) self

def keys : List DBKey :=
  (self.column col).toList.map Prod.fst

/-- Deletes the keys from the smallest to the largest one, which the range deletion leaves out. -/
def deleteAll : SecretDB Value :=
  match (self.keys col).head?, (self.keys col).getLast? with
  | some first, some last =>
      (self.deleteKeys col ((self.iterRange col first last).map Prod.fst)).delete col last
  | _, _ => self

end SecretDB

/-- The keys of the assets that involve other participants than the given ones. -/
def staleKeys (config : AssetStoreConfig Value T) (persistent : List ParticipantId) :
    List (DBKey × Value) → NodeResult (List DBKey)
  | [] => .ok []
  | (key, value) :: rest => do
      let asset ← okOr (config.codec.fromValue value) "cannot deserialize the asset"
      let keys ← staleKeys config persistent rest
      return if config.condition persistent asset then keys else key :: keys

/-- Deletes the owned assets that involve other participants than the given ones. -/
def cleanDb (config : AssetStoreConfig Value T) (persistent : List ParticipantId) :
    Effect (SecretDB Value) NodeError Unit := do
  let (start, stop) ← .lift (config.makePrefixRange config.myParticipantId)
  let keys ← .read fun db ↦
    staleKeys config persistent (db.iterRange config.col start stop)
  .modify fun db ↦ db.deleteKeys config.col keys

section Client

variable (client : MpcClient F G EddsaKeys CkdKeys ElementG1)

/-- The loop over the domains. -/
def cleanPresignatures (persistent : List ParticipantId) :
    List DomainId → Effect (SecretDB (StoredValue F G)) NodeError Unit
  | [] => pure ()
  | domainId :: rest => do
      cleanDb (client.presignatureStore domainId) persistent
      cleanPresignatures persistent rest

def applyCleanup (domainIds : List DomainId) :
    AssetCleanup → Effect (SecretDB (StoredValue F G)) NodeError Unit
  | .keep => pure ()
  | .deleteAll => .modify fun db ↦ (db.deleteAll .presignature).deleteAll .triple
  | .keepOnly persistent => do
      cleanDb client.tripleStore persistent
      cleanPresignatures client persistent domainIds

def deleteStaleTriplesAndPresignatures (codec : EpochDataCodec) (current : EpochData)
    (domainIds : List DomainId) : Effect (SecretDB (StoredValue F G)) NodeError Unit := do
  let previous ← .read (getEpochData codec)
  applyCleanup client domainIds (assetCleanup current previous)
  .modify fun db ↦ db.put .epochData epochIdKey (.other (codec.toBytes current))

end Client

/-! ### What is removed -/

/-- Exactly the given records are gone. -/
structure Removes (removed : DBCol → DBKey → Prop) (db after : SecretDB Value) : Prop where
  gone : ∀ col key, removed col key → after.get col key = none
  kept : ∀ col key, ¬ removed col key → after.get col key = db.get col key

namespace Removes

variable {removed other : DBCol → DBKey → Prop} {db middle after : SecretDB Value}

theorem refl (db : SecretDB Value) : Removes (fun _ _ ↦ False) db db :=
  ⟨fun _ _ hremoved ↦ hremoved.elim, fun _ _ _ ↦ rfl⟩

theorem congr (hremoves : Removes removed db after)
    (hsame : ∀ col key, other col key ↔ removed col key) : Removes other db after :=
  ⟨fun col key hremoved ↦ hremoves.gone col key ((hsame col key).mp hremoved),
    fun col key hkept ↦ hremoves.kept col key fun hremoved ↦ hkept ((hsame col key).mpr hremoved)⟩

theorem trans (hfirst : Removes removed db middle) (hsecond : Removes other middle after) :
    Removes (fun col key ↦ removed col key ∨ other col key) db after := by
  constructor
  · intro col key hremoved
    by_cases hother : other col key
    · exact hsecond.gone col key hother
    · rw [hsecond.kept col key hother]
      exact hfirst.gone col key (hremoved.resolve_right hother)
  · intro col key hkept
    rw [not_or] at hkept
    rw [hsecond.kept col key hkept.2, hfirst.kept col key hkept.1]

/-- What is left was there before. -/
theorem get_of_get (hremoves : Removes removed db after) {col key value}
    (hget : after.get col key = some value) : ¬ removed col key ∧ db.get col key = some value := by
  have hkept : ¬ removed col key := by
    intro hremoved
    rw [hremoves.gone col key hremoved] at hget
    cases hget
  exact ⟨hkept, hremoves.kept col key hkept ▸ hget⟩

end Removes

namespace SecretDB

variable (self : SecretDB Value) (col : DBCol)

theorem removes_delete (key : DBKey) :
    Removes (fun otherCol other ↦ otherCol = col ∧ other = key) self (self.delete col key) := by
  constructor
  · rintro _ _ ⟨rfl, rfl⟩
    rw [get_delete, if_pos rfl]
  · intro otherCol other hother
    by_cases hcol : otherCol = col
    · subst hcol
      rw [get_delete, if_neg fun hkey ↦ hother ⟨rfl, hkey.symm⟩]
    · exact get_delete_of_ne_col self (Ne.symm hcol) key other

theorem removes_deleteKeys (keys : List DBKey) :
    Removes (fun otherCol other ↦ otherCol = col ∧ other ∈ keys) self
      (self.deleteKeys col keys) := by
  induction keys generalizing self with
  | nil => exact (Removes.refl self).congr (by simp)
  | cons key _ ih =>
    refine ((self.removes_delete col key).trans (ih (self.delete col key))).congr ?_
    intro _ _
    rw [List.mem_cons, ← and_or_left]

theorem mem_iterRange_iff {self : SecretDB Value} {col : DBCol} {start stop key : DBKey}
    {value : Value} :
    (key, value) ∈ self.iterRange col start stop ↔
      self.get col key = some value ∧ start ≤ key ∧ key < stop := by
  simp only [iterRange, List.mem_filter, decide_eq_true_eq, get,
    TreeMap.mem_toList_iff_getElem?_eq_some]

theorem mem_keys_iff {self : SecretDB Value} {col : DBCol} {key : DBKey} :
    key ∈ self.keys col ↔ (self.get col key).isSome = true := by
  simp only [keys, List.mem_map, Prod.exists, exists_and_right, exists_eq_right,
    TreeMap.mem_toList_iff_getElem?_eq_some, get, Option.isSome_iff_exists]

theorem pairwise_lt_keys : (self.keys col).Pairwise (· < ·) :=
  List.pairwise_map.mpr ((self.column col).ordered_keys_toList.imp BigEndian.lt_of_compare)

/-- The two deletions together leave nothing of the column. -/
theorem removes_deleteAll :
    Removes (fun otherCol _ ↦ otherCol = col) self (self.deleteAll col) := by
  have hsorted := self.pairwise_lt_keys col
  unfold deleteAll
  cases hkeys : self.keys col with
  | nil =>
    refine ⟨fun otherCol key hcol ↦ ?_, fun _ _ _ ↦ rfl⟩
    have habsent := mem_keys_iff.not.mp (hkeys ▸ List.not_mem_nil : key ∉ self.keys col)
    rw [hcol]
    exact Option.not_isSome_iff_eq_none.mp habsent
  | cons first rest =>
    rw [hkeys] at hsorted
    have hnonempty : first :: rest ≠ [] := List.cons_ne_nil first rest
    have hsplit := List.dropLast_append_getLast hnonempty
    rw [List.head?_cons, List.getLast?_eq_some_getLast hnonempty]
    generalize (first :: rest).getLast hnonempty = last at hsplit ⊢
    have hremoves := (self.removes_deleteKeys col
      ((self.iterRange col first last).map Prod.fst)).trans (removes_delete _ col last)
    refine ⟨fun otherCol key hcol ↦ ?_, fun otherCol key hother ↦ hremoves.kept otherCol key ?_⟩
    · rw [hcol]
      by_contra hleft
      obtain ⟨_, hvalue⟩ := Option.ne_none_iff_exists'.mp hleft
      obtain ⟨hkept, hget⟩ := hremoves.get_of_get hvalue
      have hmem := mem_keys_iff.mpr (Option.isSome_of_eq_some hget)
      rw [hkeys] at hmem
      have hfirst : first ≤ key := by
        rcases List.mem_cons.mp hmem with rfl | hrest
        · exact List.le_refl _
        · exact List.le_of_lt ((List.pairwise_cons.mp hsorted).1 key hrest)
      refine hkept ?_
      rw [← hsplit] at hmem hsorted
      rcases List.mem_append.mp hmem with hearlier | hlast
      · have hlt := (List.pairwise_append.mp hsorted).2.2 key hearlier last
          (List.mem_singleton_self _)
        exact .inl ⟨rfl, List.mem_map_of_mem (mem_iterRange_iff.mpr ⟨hget, hfirst, hlt⟩)⟩
      · exact .inr ⟨rfl, List.mem_singleton.mp hlast⟩
    · rintro (⟨hcol, -⟩ | ⟨hcol, -⟩) <;> exact hother hcol

end SecretDB

/-! ### Cleaning one store -/

section Store

variable {config : AssetStoreConfig Value T} {persistent : List ParticipantId}
  {db : SecretDB Value}

/-- An asset of this node is under the key. -/
def OwnedIn (config : AssetStoreConfig Value T) (db : SecretDB Value) (col : DBCol) (key : DBKey)
    (asset : T) : Prop :=
  col = config.col ∧
    (∃ id, id.participantId = config.myParticipantId ∧ key = config.makeKey id) ∧
    (db.get col key).bind config.codec.fromValue = some asset

/-- An asset of this node under the key involves other participants than the given ones. -/
def StaleIn (config : AssetStoreConfig Value T) (persistent : List ParticipantId)
    (db : SecretDB Value) (col : DBCol) (key : DBKey) : Prop :=
  ∃ asset, OwnedIn config db col key asset ∧ config.condition persistent asset = false

/-- The records in the range of this node are assets of the store. -/
def ReadsOwn (config : AssetStoreConfig Value T) (db : SecretDB Value) : Prop :=
  ∀ start stop, config.makePrefixRange config.myParticipantId = .ok (start, stop) →
    ∀ key value, db.get config.col key = some value → start ≤ key → key < stop →
      ∃ id asset, key = config.makeKey id ∧ config.codec.fromValue value = some asset

theorem ReadsOwn.removes {removed : DBCol → DBKey → Prop} {after} (hreads : ReadsOwn config db)
    (hremoves : Removes removed db after) : ReadsOwn config after :=
  fun start stop hrange key value hget ↦
    hreads start stop hrange key value (hremoves.get_of_get hget).2

theorem staleKeys_spec {records}
    (hreads : ∀ record ∈ records, ∃ asset, config.codec.fromValue record.2 = some asset) :
    ∃ keys, staleKeys config persistent records = .ok keys ∧
      ∀ key, key ∈ keys ↔ ∃ value asset, (key, value) ∈ records ∧
        config.codec.fromValue value = some asset ∧
        config.condition persistent asset = false := by
  induction records with
  | nil => exact ⟨[], rfl, by simp⟩
  | cons record _ ih =>
    obtain ⟨first, value⟩ := record
    rw [List.forall_mem_cons] at hreads
    obtain ⟨⟨asset, hasset⟩, hrest⟩ := hreads
    obtain ⟨_, hkeys, hmem⟩ := ih hrest
    refine ⟨_, by rw [staleKeys, hasset, okOr, ok_bind, hkeys, ok_bind, pure_eq], fun key ↦ ?_⟩
    have hfirst : (∃ other found, (key, other) = (first, value) ∧
        config.codec.fromValue other = some found ∧ config.condition persistent found = false) ↔
          key = first ∧ config.condition persistent asset = false := by
      constructor
      · rintro ⟨_, _, hsame, hfound, hstale⟩
        obtain ⟨rfl, rfl⟩ := Prod.mk.inj hsame
        obtain rfl := Option.some.inj (hasset.symm.trans hfound)
        exact ⟨rfl, hstale⟩
      · rintro ⟨rfl, hstale⟩
        exact ⟨value, asset, rfl, hasset, hstale⟩
    simp only [List.mem_cons, or_and_right, exists_or, hfirst, ← hmem]
    cases config.condition persistent asset <;> simp

/-- Cleaning a store whose own records can be read removes exactly the stale assets. -/
theorem cleanDb_removes (hlast : config.myParticipantId.toNat + 1 < 2 ^ 32)
    (hreads : ReadsOwn config db) :
    ∃ after, cleanDb config persistent db = (after, .ok ()) ∧
      Removes (StaleIn config persistent db) db after := by
  obtain ⟨start, stop, hrange⟩ : ∃ start stop,
      config.makePrefixRange config.myParticipantId = .ok (start, stop) := by
    have hnext : checkedAdd config.myParticipantId 1 = some (config.myParticipantId + 1) :=
      if_pos hlast
    simp only [makePrefixRange, hnext, unwrap, ok_bind, pure_eq,
      ok.injEq, Prod.mk.injEq, exists_and_left, exists_eq', and_true]
  obtain ⟨keys, hkeys, hmem⟩ := @staleKeys_spec Value T config persistent
    (db.iterRange config.col start stop) (by
      rintro ⟨key, value⟩ hrecord
      obtain ⟨hget, hstart, hstop⟩ := mem_iterRange_iff.mp hrecord
      obtain ⟨-, asset, -, hasset⟩ := hreads start stop hrange key value hget hstart hstop
      exact ⟨asset, hasset⟩)
  refine ⟨db.deleteKeys config.col keys, ?_, ?_⟩
  · rw [cleanDb, hrange]
    simp only [Effect.bind_def, Effect.andThen, Effect.lift_apply, Effect.read_apply, hkeys,
      Effect.modify_apply]
  · refine (db.removes_deleteKeys config.col keys).congr fun col key ↦ ?_
    rw [hmem]
    constructor
    · rintro ⟨asset, ⟨rfl, ⟨id, hparticipant, rfl⟩, hasset⟩, hstale⟩
      obtain ⟨value, hget, hvalue⟩ := Option.bind_eq_some_iff.mp hasset
      obtain ⟨hstart, hstop⟩ := (makeKey_mem_range hrange id).mpr hparticipant
      exact ⟨rfl, value, asset, mem_iterRange_iff.mpr ⟨hget, hstart, hstop⟩, hvalue, hstale⟩
    · rintro ⟨rfl, value, asset, hrecord, hasset, hstale⟩
      obtain ⟨hget, hstart, hstop⟩ := mem_iterRange_iff.mp hrecord
      obtain ⟨id, -, rfl, -⟩ := hreads start stop hrange key value hget hstart hstop
      exact ⟨asset, ⟨rfl, ⟨id, (makeKey_mem_range hrange id).mp ⟨hstart, hstop⟩, rfl⟩,
        Option.bind_eq_some_iff.mpr ⟨value, hget, hasset⟩⟩, hstale⟩

end Store

/-! ### Cleaning all stores -/

section Stores

variable {client : MpcClient F G EddsaKeys CkdKeys ElementG1} {domainIds : List DomainId}
  {db middle : SecretDB (StoredValue F G)} {removed : DBCol → DBKey → Prop}
  {persistent : List ParticipantId}

/-- A stale presignature of one of the domains is under the key. -/
def StalePresignature (client : MpcClient F G EddsaKeys CkdKeys ElementG1)
    (domainIds : List DomainId) (persistent : List ParticipantId)
    (db : SecretDB (StoredValue F G)) (col : DBCol) (key : DBKey) : Prop :=
  ∃ domainId ∈ domainIds, StaleIn (client.presignatureStore domainId) persistent db col key

/-- What is stale in the middle was stale before, up to what was removed before. -/
theorem Removes.trans_stale {after} (hfirst : Removes removed db middle)
    (hsecond : Removes (StalePresignature client domainIds persistent middle) middle after) :
    Removes (fun col key ↦ removed col key ∨
      StalePresignature client domainIds persistent db col key) db after := by
  refine (hfirst.trans hsecond).congr fun col key ↦ ?_
  by_cases hremoved : removed col key
  · simp only [hremoved, true_or]
  · simp only [hremoved, false_or, StalePresignature, StaleIn, OwnedIn,
      hfirst.kept col key hremoved]

section

variable (hlast : client.myParticipantId.toNat + 1 < 2 ^ 32)
  (hpresignatures : ∀ domainId ∈ domainIds, ReadsOwn (client.presignatureStore domainId) db)
include hlast hpresignatures

theorem cleanPresignatures_removes :
    ∃ after, cleanPresignatures client persistent domainIds db = (after, .ok ()) ∧
      Removes (StalePresignature client domainIds persistent db) db after := by
  induction domainIds generalizing db with
  | nil => exact ⟨db, rfl, (Removes.refl db).congr (by simp [StalePresignature])⟩
  | cons domainId rest ih =>
    rw [List.forall_mem_cons] at hpresignatures
    obtain ⟨_, hclean, hfirst⟩ := @cleanDb_removes _ _ (client.presignatureStore domainId)
      persistent db hlast hpresignatures.1
    obtain ⟨after, hloop, hsecond⟩ :=
      ih fun other hother ↦ (hpresignatures.2 other hother).removes hfirst
    refine ⟨after, ?_, (hfirst.trans_stale hsecond).congr fun col key ↦ ?_⟩
    · rw [cleanPresignatures, Effect.bind_of_ok hclean, hloop]
    · simp only [StalePresignature, List.mem_cons, exists_eq_or_imp]

theorem keepOnly_removes (htriples : ReadsOwn client.tripleStore db) :
    ∃ after, applyCleanup client domainIds (.keepOnly persistent) db = (after, .ok ()) ∧
      Removes (fun col key ↦ StaleIn client.tripleStore persistent db col key ∨
        StalePresignature client domainIds persistent db col key) db after := by
  obtain ⟨_, hclean, hfirst⟩ := @cleanDb_removes _ _ client.tripleStore persistent db hlast
    htriples
  obtain ⟨after, hloop, hsecond⟩ := cleanPresignatures_removes hlast
    fun domainId hdomain ↦ (hpresignatures domainId hdomain).removes hfirst
  refine ⟨after, ?_, hfirst.trans_stale hsecond⟩
  rw [applyCleanup, Effect.bind_of_ok hclean, hloop]

end

end Stores

/-! ### Own assets and participants -/

/-- The participant is a current one and its TLS key is not known to have changed. -/
def Persists (previous current : EpochData) (participantId : ParticipantId) : Prop :=
  ∃ participant ∈ current.participants, participant.id = participantId ∧
    ∀ before ∈ previous.getInfo participantId, participant.p2pPublicKey = before.p2pPublicKey

/-- The TLS key of the participant has changed. -/
def KeyChanged (previous : EpochData) (participant : PeerInfo) : Prop :=
  ∃ before ∈ previous.getInfo participant.id, participant.p2pPublicKey ≠ before.p2pPublicKey

section Participants

variable {previous current : EpochData}

theorem EpochData.id_of_getInfo {data : EpochData} {id : ParticipantId} {info : PeerInfo}
    (hinfo : info ∈ data.getInfo id) : info.id = id := by
  simpa using List.find?_some hinfo

theorem mem_persistentParticipants {participantId : ParticipantId} :
    participantId ∈ persistentParticipants previous current ↔
      Persists previous current participantId := by
  simp only [persistentParticipants, List.mem_filterMap, Persists]
  refine exists_congr fun participant ↦ and_congr_right fun _ ↦ ?_
  cases hinfo : previous.getInfo participant.id with
  | none =>
    simp only [Option.some.injEq]
    refine ⟨?_, And.left⟩
    rintro rfl
    exact ⟨rfl, by simp [hinfo]⟩
  | some before =>
    have hid := EpochData.id_of_getInfo hinfo
    dsimp only
    split_ifs with hkey
    · rw [Option.some.injEq, hid]
      refine ⟨?_, And.left⟩
      rintro rfl
      exact ⟨rfl, by simpa [hinfo] using hkey⟩
    · simp only [false_iff, not_and]
      rintro rfl hsame
      exact hkey (hsame before hinfo)

/-- Participants are dropped exactly if some TLS key has changed. -/
theorem length_persistentParticipants_ne :
    (persistentParticipants previous current).length ≠ current.participants.length ↔
      ∃ participant ∈ current.participants, KeyChanged previous participant := by
  have hle : (persistentParticipants previous current).length ≤ current.participants.length :=
    List.length_filterMap_le _ _
  have hlt : (persistentParticipants previous current).length ≠ current.participants.length ↔
      (persistentParticipants previous current).length < current.participants.length :=
    ⟨lt_of_le_of_ne hle, ne_of_lt⟩
  rw [hlt, persistentParticipants, List.length_filterMap_lt_length_iff_exists]
  simp only [exists_prop]
  refine exists_congr fun participant ↦ and_congr_right fun _ ↦ ?_
  cases hinfo : previous.getInfo participant.id with
  | none | some => simp [KeyChanged, hinfo]

end Participants

section OwnAssets

variable (client : MpcClient F G EddsaKeys CkdKeys ElementG1) (domainIds : List DomainId)

/-- This node owns a triple, or a presignature of one of the domains, under the key; the
participants are those that have a share of it. -/
def OwnAsset (db : SecretDB (StoredValue F G)) (col : DBCol) (key : DBKey)
    (participants : List ParticipantId) : Prop :=
  (∃ pair, OwnedIn client.tripleStore db col key pair ∧
    participantsFromTriples pair = participants) ∨
  ∃ domainId ∈ domainIds, ∃ record,
    OwnedIn (client.presignatureStore domainId) db col key record ∧
      record.participants = participants

variable {client domainIds} {db after : SecretDB (StoredValue F G)}
  {persistent : List ParticipantId} {col : DBCol} {key : DBKey}

/-- The stale assets are the own assets that involve a participant not among the given ones. -/
theorem staleIn_iff_ownAsset :
    (StaleIn client.tripleStore persistent db col key ∨
      StalePresignature client domainIds persistent db col key) ↔
      ∃ participants, OwnAsset client domainIds db col key participants ∧
        ∃ participantId ∈ participants, participantId ∉ persistent := by
  have hcond : ∀ participants : List ParticipantId,
      participants.all (persistent.contains ·) = false ↔
        ∃ participantId ∈ participants, participantId ∉ persistent := by
    intro _
    simp [List.all_eq_false]
  constructor
  · rintro (⟨pair, hown, hstale⟩ | ⟨domainId, hmem, record, hown, hstale⟩)
    · exact ⟨_, .inl ⟨pair, hown, rfl⟩, (hcond _).mp hstale⟩
    · exact ⟨_, .inr ⟨domainId, hmem, record, hown, rfl⟩, (hcond _).mp hstale⟩
  · rintro ⟨_, ⟨pair, hown, rfl⟩ | ⟨domainId, hmem, record, hown, rfl⟩, hstranger⟩
    · exact .inl ⟨pair, hown, (hcond _).mpr hstranger⟩
    · exact .inr ⟨domainId, hmem, record, hown, (hcond _).mpr hstranger⟩

variable {participants : List ParticipantId}

theorem ownAsset_congr (hsame : after.get col key = db.get col key) :
    OwnAsset client domainIds after col key participants ↔
      OwnAsset client domainIds db col key participants := by
  simp only [OwnAsset, OwnedIn, hsame]

/-- An own asset that is left was there before. -/
theorem OwnAsset.of_removes {removed : DBCol → DBKey → Prop} (hremoves : Removes removed db after)
    (hasset : OwnAsset client domainIds after col key participants) :
    ¬ removed col key ∧ OwnAsset client domainIds db col key participants := by
  have hkept : ¬ removed col key := by
    intro hremoved
    simp [OwnAsset, OwnedIn, hremoves.gone col key hremoved] at hasset
  exact ⟨hkept, (ownAsset_congr (hremoves.kept col key hkept)).mp hasset⟩

/-- The record of the epoch is not the one under the given key. -/
theorem SecretDB.get_put_epoch {db : SecretDB Value} (value : Value)
    (hother : (col, key) ≠ (.epochData, epochIdKey)) :
    (db.put .epochData epochIdKey value).get col key = db.get col key := by
  by_cases hcol : col = .epochData
  · subst hcol
    rw [get_put, if_neg fun hkey ↦ hother (by rw [hkey])]
  · exact db.get_put_of_ne_col (Ne.symm hcol) epochIdKey key value

theorem OwnAsset.of_put_epoch {value : StoredValue F G}
    (hasset : OwnAsset client domainIds (db.put .epochData epochIdKey value) col key participants) :
    OwnAsset client domainIds db col key participants := by
  refine (ownAsset_congr (get_put_epoch value ?_)).mp hasset
  rcases hasset with ⟨_, ⟨rfl, -⟩, -⟩ | ⟨_, -, _, ⟨rfl, -⟩, -⟩ <;>
    simp [MpcClient.tripleStore, MpcClient.presignatureStore]

end OwnAssets

/-! ### The cleanup as a whole -/

/-- Some TLS key has changed within the epoch. -/
def KeysChanged (stored : Option EpochDataWrapper) (previous current : EpochData) : Prop :=
  stored = some (.current previous) ∧ previous.epochId = current.epochId ∧
    ∃ participant ∈ current.participants, KeyChanged previous participant

theorem assetCleanup_cases (current : EpochData) (stored : Option EpochDataWrapper) :
    ((∃ previous ∈ stored, previous.epochId ≠ current.epochId) ∧
      assetCleanup current stored = .deleteAll) ∨
    (∃ previous, KeysChanged stored previous current ∧
      assetCleanup current stored = .keepOnly (persistentParticipants previous current)) ∨
    ((∀ previous ∈ stored, previous.epochId = current.epochId) ∧
      (∀ previous, ¬ KeysChanged stored previous current) ∧
      assetCleanup current stored = .keep) := by
  cases stored with
  | none => exact Or.inr (Or.inr ⟨by simp, by simp [KeysChanged], rfl⟩)
  | some wrapper =>
    by_cases hepoch : wrapper.epochId = current.epochId
    · right
      cases wrapper with
      | legacy =>
        refine Or.inr ⟨by simpa using hepoch, by simp [KeysChanged], ?_⟩
        exact if_neg (not_not_intro hepoch)
      | current previous =>
        have hsame : ¬ previous.epochId ≠ current.epochId := not_not_intro hepoch
        by_cases hchanged : ∃ participant ∈ current.participants, KeyChanged previous participant
        · refine .inl ⟨previous, ⟨rfl, hepoch, hchanged⟩, ?_⟩
          rw [assetCleanup, cleanupBehavior, if_neg hsame,
            if_pos (length_persistentParticipants_ne.mpr hchanged)]
        · refine .inr ⟨by simpa using hepoch, ?_, ?_⟩
          · rintro _ ⟨hwrapper, -, hother⟩
            obtain rfl := EpochDataWrapper.current.inj (Option.some.inj hwrapper)
            exact hchanged hother
          · rw [assetCleanup, cleanupBehavior, if_neg hsame,
              if_neg (length_persistentParticipants_ne.not.mpr hchanged)]
    · refine .inl ⟨⟨wrapper, rfl, hepoch⟩, ?_⟩
      cases wrapper with
      | legacy | current => exact if_pos hepoch

theorem deleteAll_removes (client : MpcClient F G EddsaKeys CkdKeys ElementG1)
    (domainIds : List DomainId) (db : SecretDB (StoredValue F G)) :
    ∃ after, applyCleanup client domainIds .deleteAll db = (after, .ok ()) ∧
      Removes (fun col _ ↦ col = .presignature ∨ col = .triple) db after :=
  ⟨_, rfl, (db.removes_deleteAll .presignature).trans (removes_deleteAll _ .triple)⟩

namespace StaleAssets

/-- Node 1. -/
def client : MpcClient (ZMod 3) (ZMod 3) Unit Unit Unit := FiveNodes.client 1

/-- Three nodes. -/
def recorded : EpochData where
  epochId := 5
  participants := [⟨1, [1]⟩, ⟨2, [2]⟩, ⟨3, [3]⟩]

/-- Node 3 has a new TLS key. -/
def rotated : EpochData where
  epochId := 5
  participants := [⟨1, [1]⟩, ⟨2, [2]⟩, ⟨3, [33]⟩]

/-- Node 3 has left. -/
def smaller : EpochData where
  epochId := 5
  participants := [⟨1, [1]⟩, ⟨2, [2]⟩]

def codec : EpochDataCodec where
  toBytes := fun _ ↦ [1]
  fromBytes := fun _ ↦ some recorded

def triple (participants : List ParticipantId) : PairedTriple (ZMod 3) (ZMod 3) :=
  ((⟨0, 0, 0⟩, ⟨0, 0, 0, participants, ⟨2⟩⟩), (⟨0, 0, 0⟩, ⟨0, 0, 0, participants, ⟨2⟩⟩))

/-- The id of an asset of node 1. -/
def ownId (counter : UInt32) : UniqueId := UniqueId.new 1 100 counter

/-- Two triples, a presignature of domain 0, and the record of the epoch. -/
def db : SecretDB (StoredValue (ZMod 3) (ZMod 3)) :=
  (((empty.put .triple (client.tripleStore.makeKey (ownId 0)) (.pairedTriple (triple [1, 2]))).put
    .triple (client.tripleStore.makeKey (ownId 1)) (.pairedTriple (triple [1, 3]))).put
    .presignature ((client.presignatureStore 0).makeKey (ownId 0))
      (.presignature ⟨⟨0, 0, 0⟩, [1, 3]⟩)).put .epochData epochIdKey (.other [1])

/-- The same with a presignature of the robust scheme in domain 1. -/
def robustDb : SecretDB (StoredValue (ZMod 3) (ZMod 3)) :=
  db.put .presignature ((client.presignatureStore 1).makeKey (ownId 0))
    (.robustPresignature ⟨⟨0, 0, 0, 0, 0⟩, [1, 2]⟩)

theorem readsOwn_triples : ReadsOwn client.tripleStore db := by
  intro _ _ _ key value hget _ _
  have hrecords : (db.column .triple).toList =
      [(client.tripleStore.makeKey (ownId 0), .pairedTriple (triple [1, 2])),
        (client.tripleStore.makeKey (ownId 1), .pairedTriple (triple [1, 3]))] := by
    decide +kernel
  have hmem : (key, value) ∈ (db.column .triple).toList :=
    TreeMap.mem_toList_iff_getElem?_eq_some.mpr hget
  simp only [hrecords, List.mem_cons, Prod.mk.injEq, List.not_mem_nil, or_false] at hmem
  rcases hmem with ⟨rfl, rfl⟩ | ⟨rfl, rfl⟩
  exacts [⟨_, _, rfl, rfl⟩, ⟨_, _, rfl, rfl⟩]

theorem readsOwn_presignatures (domainId : DomainId) :
    ReadsOwn (client.presignatureStore domainId) db := by
  intro _ _ hrange key value hget hstart hstop
  have hrecords : (db.column .presignature).toList =
      [((client.presignatureStore 0).makeKey (ownId 0), .presignature ⟨⟨0, 0, 0⟩, [1, 3]⟩)] := by
    decide +kernel
  have hmem : (key, value) ∈ (db.column .presignature).toList :=
    TreeMap.mem_toList_iff_getElem?_eq_some.mpr hget
  rw [hrecords, List.mem_singleton, Prod.mk.injEq] at hmem
  obtain ⟨rfl, rfl⟩ := hmem
  obtain ⟨hdomain, -⟩ := (makeKey_mem_range_iff hrange
    (rfl : (some 0).isSome = _) (ownId 0)).mp ⟨hstart, hstop⟩
  obtain rfl : 0 = domainId := Option.some.inj hdomain
  exact ⟨_, _, rfl, rfl⟩

end StaleAssets

end NearMpc.Node
