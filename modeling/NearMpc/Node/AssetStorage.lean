import NearMpc.Library.Effect
import NearMpc.Library.Run
import NearMpc.Node.AssetQueue
import NearMpc.Node.Database

/-!
# The storage of assets

One asset store keeps its assets in a column of the node's database, under a key built from the
domain and the asset's id. The assets this node owns are also kept in memory, in the double queue.
Follows `DistributedAssetStorage` of `assets.rs`.
-/

set_option autoImplicit false

namespace NearMpc.Node

open Library Library.Outcome

/-- What is fixed over the lifetime of a store. -/
structure AssetStoreConfig (Value T : Type) where
  codec : Codec Value T
  col : DBCol
  domainId : Option DomainId
  myParticipantId : ParticipantId
  /-- Whether an asset is usable, given the participants that are alive. -/
  condition : List ParticipantId → T → Bool

structure DistributedAssetStorage (Value T : Type) where
  db : SecretDB Value
  ownedQueue : DoubleQueue T (List ParticipantId)
  lastId : Option UniqueId

variable {Value T : Type}

namespace AssetStoreConfig

variable (self : AssetStoreConfig Value T)

def domainPrefix : List UInt8 :=
  match self.domainId with
  | some domainId => domainIdToBytes domainId
  | none => []

variable (id : UniqueId)

def makeKey : DBKey :=
  self.domainPrefix ++ id.toBytes

/-- The range of the keys of a participant. The last participant id has no successor. -/
def makePrefixRange (participantId : ParticipantId) : NodeResult (DBKey × DBKey) := do
  let next ← unwrap (checkedAdd participantId 1)
  return (self.domainPrefix ++ UniqueId.prefixForParticipantId participantId,
    self.domainPrefix ++ UniqueId.prefixForParticipantId next)

/-- Slicing off the domain panics when the key is shorter than a domain id. -/
def decodeKey (key : DBKey) : NodeResult UniqueId :=
  match self.domainId with
  | some _ => do
      guardPanic (8 ≤ key.length)
      UniqueId.tryFromSlice (key.drop 8)
  | none => UniqueId.tryFromSlice key

theorem decodeKey_makeKey : self.decodeKey (self.makeKey id) = .ok id := by
  unfold decodeKey makeKey domainPrefix
  cases self.domainId with
  | none => simp
  | some domainId =>
    have hlength : (domainIdToBytes domainId).length = 8 := BigEndian.length_toBytes 8 _
    simp [guardPanic, hlength]

theorem makeKey_injective : Function.Injective self.makeKey := by
  intro first second hkeys
  have hdecoded := self.decodeKey_makeKey first
  rw [hkeys, self.decodeKey_makeKey second] at hdecoded
  exact (ok.inj hdecoded).symm

/-- Records an unowned asset. -/
def addUnowned (value : T) : Effect (SecretDB Value) NodeError Unit :=
  Effect.modify fun db ↦ db.put self.col (self.makeKey id) (self.codec.toValue value)

/-- Takes whatever the database holds under the id. The record is deleted before it is decoded. -/
def takeUnowned : Effect (SecretDB Value) NodeError T := fun db ↦
  match db.get self.col (self.makeKey id) with
  | none =>
      (db, .err ("Unowned " ++ self.col.asStr ++ " not found in the database: " ++ id.debug))
  | some value =>
      (db.delete self.col (self.makeKey id),
        okOr (self.codec.fromValue value) "cannot deserialize the asset")

/-- What a successful take has read and deleted. -/
theorem takeUnowned_eq_ok {self : AssetStoreConfig Value T} {id : UniqueId}
    {db after : SecretDB Value} {asset : T} (hok : self.takeUnowned id db = (after, .ok asset)) :
    ∃ value, db.get self.col (self.makeKey id) = some value ∧
      self.codec.fromValue value = some asset ∧ after = db.delete self.col (self.makeKey id) := by
  unfold takeUnowned at hok
  split at hok
  · cases hok
  next value hget =>
    rw [Prod.mk.injEq, okOr_eq_ok] at hok
    exact ⟨value, hget, hok.2, hok.1.symm⟩

end AssetStoreConfig

namespace DistributedAssetStorage

variable (config : AssetStoreConfig Value T)

/-- The loop of `new` over the owned records: each is sent to the queue, in key order. -/
def loadOwned : DoubleQueue T (List ParticipantId) → Option UniqueId → List (DBKey × Value) →
    NodeResult (DoubleQueue T (List ParticipantId) × Option UniqueId)
  | queue, lastId, [] => .ok (queue, lastId)
  | queue, _, (key, value) :: rest => do
      let id ← config.decodeKey key
      let asset ← okOr (config.codec.fromValue value) "cannot deserialize the asset"
      loadOwned (queue.addOwned id asset) (some id) rest

/-- A store over an existing database: the owned assets are replicated to memory. -/
def new (now : ℕ) (db : SecretDB Value) : NodeResult (DistributedAssetStorage Value T) := do
  let (start, stop) ← config.makePrefixRange config.myParticipantId
  let (ownedQueue, lastId) ←
    loadOwned config (DoubleQueue.new now) none (db.iterRange config.col start stop)
  return { db, ownedQueue, lastId }

variable (self : DistributedAssetStorage Value T)

/-- Deletes the record of a taken asset. -/
def finishTake (outcome : DoubleQueue T (List ParticipantId) × Option (UniqueId × T)) :
    DistributedAssetStorage Value T × Option (UniqueId × T) :=
  match outcome with
  | (ownedQueue, none) => ({ self with ownedQueue }, none)
  | (ownedQueue, some (id, asset)) =>
      ({ self with ownedQueue, db := self.db.delete config.col (config.makeKey id) },
        some (id, asset))

/-- Takes a usable owned asset; `none` while the call is still waiting for one. -/
def takeOwned (read : ColdRead (List ParticipantId))
    (polls : List (TakePoll (List ParticipantId))) :
    NodeResult (DistributedAssetStorage Value T × Option (UniqueId × T)) := do
  return self.finishTake config (← self.ownedQueue.takeOwned config.condition read polls)

/-- Resumes a waiting `takeOwned`. -/
def resumeTakeOwned (polls : List (TakePoll (List ParticipantId))) :
    NodeResult (DistributedAssetStorage Value T × Option (UniqueId × T)) := do
  return self.finishTake config (← self.ownedQueue.takeLoop config.condition polls)

variable (id : UniqueId)

def addOwned (value : T) : DistributedAssetStorage Value T :=
  { self with
    db := self.db.put config.col (config.makeKey id) (config.codec.toValue value)
    ownedQueue := self.ownedQueue.addOwned id value }

/-- Discards unusable owned assets. Those found in the cold queue are deleted from the database. -/
def maybeDiscardOwned (reads : DiscardReads (List ParticipantId)) (numAssetsToProcess : ℕ) :
    NodeResult (DistributedAssetStorage Value T) := do
  let (ownedQueue, removedColdIds) ←
    self.ownedQueue.maybeDiscardOwned config.condition reads numAssetsToProcess
  return { self with
    ownedQueue
    db := removedColdIds.foldl (fun db id ↦ db.delete config.col (config.makeKey id)) self.db }

def addUnowned (value : T) : DistributedAssetStorage Value T :=
  { self with db := (config.addUnowned id value self.db).1 }

def takeUnowned : DistributedAssetStorage Value T × NodeResult T :=
  let (db, taken) := config.takeUnowned id self.db
  ({ self with db }, taken)

/-- The record of an asset. -/
def recordOf (element : UniqueId × T) : DBKey × Value :=
  (config.makeKey element.1, config.codec.toValue element.2)

/-- Records of assets are all loaded. -/
theorem loadOwned_recordOf (loaded : List (UniqueId × T))
    (queue : DoubleQueue T (List ParticipantId)) (lastId : Option UniqueId) :
    ∃ after afterId, loadOwned config queue lastId (loaded.map (recordOf config)) =
        .ok (after, afterId) ∧ after.elements.Perm (loaded ++ queue.elements) := by
  induction loaded generalizing queue lastId with
  | nil => exact ⟨queue, lastId, rfl, List.Perm.refl _⟩
  | cons element rest ih =>
    obtain ⟨id, asset⟩ := element
    obtain ⟨after, afterId, hload, hperm⟩ := ih (queue.addOwned id asset) (some id)
    refine ⟨after, afterId, ?_, ?_⟩
    · simp [loadOwned, recordOf, config.decodeKey_makeKey, config.codec.fromValue_toValue, okOr,
        hload]
    · refine hperm.trans ?_
      exact ((queue.addOwned_elements id asset).append_left rest).trans List.perm_middle

end DistributedAssetStorage

end NearMpc.Node
