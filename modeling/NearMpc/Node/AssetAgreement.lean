import NearMpc.Node.AssetStorage
import NearMpc.Node.QueueSections

/-!
# Owned assets in memory and on disk

The ids of the assets in the in-memory queues against the keys of this node's own records, over any
sequence of adds, takes, discards and restarts of one store. Follows `DistributedAssetStorage` of
`assets.rs`.

`Mirrored` is the invariant: the keys of the queued assets are exactly the own keys of the database,
each queued once. A take removes an element and the record under its id, a discard from the cold
queue does the same. A discard from the hot queue removes the element alone. `MirrorsHot` is the
condition that this does not happen: an added asset has a new id of this node, and a discard finds
only usable assets in the hot queue.
-/

set_option autoImplicit false

namespace NearMpc.Node

open Library Library.Outcome BigEndian

variable {Value T : Type}

/-! ### Own keys -/

variable {id : UniqueId}

/-- Reading an id is the inverse of writing it. -/
theorem UniqueId.toBytes_of_tryFromSlice {bytes} (hok : UniqueId.tryFromSlice bytes = .ok id) :
    id.toBytes = bytes := by
  simp only [UniqueId.tryFromSlice, bind_eq_ok, require_eq_ok, pure_eq, ok.injEq,
    exists_const] at hok
  obtain ⟨hlower, hupper, rfl⟩ := hok
  have hlength : bytes.length = 16 := le_antisymm hupper hlower
  have hlt := ofBytes_lt bytes
  rw [hlength] at hlt
  have hvalue : (BitVec.ofNat 128 (ofBytes bytes)).toNat = ofBytes bytes := by
    rw [BitVec.toNat_ofNat]
    exact Nat.mod_eq_of_lt (hlt.trans_le (by norm_num))
  rw [UniqueId.toBytes, hvalue, ← hlength]
  exact toBytes_ofBytes bytes

/-- The serialised form starts with the participant. -/
theorem UniqueId.toBytes_eq (id : UniqueId) :
    id.toBytes = participantIdToBytes id.participantId ++ BigEndian.toBytes 12 id.raw.toNat := by
  have hparticipant : id.participantId.toNat = id.raw.toNat / 256 ^ 12 := by
    have hlt := id.raw.isLt
    simp only [UniqueId.participantId, UInt32.toNat_ofBitVec, BitVec.toNat_setWidth,
      BitVec.toNat_ushiftRight, Nat.shiftRight_eq_div_pow]
    omega
  rw [UniqueId.toBytes, participantIdToBytes, hparticipant]
  exact toBytes_add 4 12 _

namespace AssetStoreConfig

variable {config : AssetStoreConfig Value T} {participantId : ParticipantId} {start stop : DBKey}

section

variable (hrange : config.makePrefixRange participantId = .ok (start, stop))
include hrange

theorem makePrefixRange_eq_ok :
    participantId.toNat + 1 < 2 ^ 32 ∧
      start = config.domainPrefix ++ toBytes 4 participantId.toNat ∧
      stop = config.domainPrefix ++ toBytes 4 (participantId.toNat + 1) := by
  have hone : (1 : UInt32).toNat = 1 := rfl
  by_cases hlast : participantId.toNat + 1 < 2 ^ 32
  · have hnext : (participantId + 1).toNat = participantId.toNat + 1 := by
      rw [UInt32.toNat_add, hone]
      exact Nat.mod_eq_of_lt hlast
    simp only [makePrefixRange, checkedAdd, hone, hlast, if_true, unwrap, ok_bind, pure_eq,
      ok.injEq, Prod.mk.injEq, UniqueId.prefixForParticipantId, participantIdToBytes,
      hnext] at hrange
    exact ⟨hlast, hrange.1.symm, hrange.2.symm⟩
  · simp only [makePrefixRange, checkedAdd, hone, hlast, if_false, unwrap] at hrange
    cases hrange

/-- The keys of a participant are the keys of its ids. -/
theorem makeKey_mem_range (id : UniqueId) :
    (start ≤ config.makeKey id ∧ config.makeKey id < stop) ↔ id.participantId = participantId := by
  obtain ⟨_, rfl, rfl⟩ := makePrefixRange_eq_ok hrange
  have hlimit := id.participantId.toNat_lt
  rw [makeKey, append_left_le_iff, append_left_lt_iff, UniqueId.toBytes_eq, participantIdToBytes]
  constructor
  · rintro ⟨hstart, hstop⟩
    by_contra hother
    have hne : id.participantId.toNat ≠ participantId.toNat :=
      fun hsame ↦ hother (UInt32.toNat_inj.mp hsame)
    rcases Nat.lt_or_gt_of_ne hne with hbelow | habove
    · have hlt := @BigEndian.toBytes_append_lt 4 _ _ hbelow (by omega) (toBytes 12 id.raw.toNat) []
      rw [List.append_nil] at hlt
      exact hstart hlt
    · rcases Nat.lt_or_eq_of_le (Nat.succ_le_of_lt habove) with hfar | hsame
      · have hlt := @BigEndian.toBytes_append_lt 4 _ _ hfar (by omega) [] (toBytes 12 id.raw.toNat)
        rw [List.append_nil] at hlt
        exact List.lt_asymm hlt hstop
      · rw [← hsame] at hstop
        exact List.le_append_left hstop
  · rintro rfl
    have hlt := @BigEndian.toBytes_append_lt 4 _ _ (Nat.lt_succ_self id.participantId.toNat)
      (by omega) (toBytes 12 id.raw.toNat) []
    rw [List.append_nil] at hlt
    exact ⟨List.le_append_left, hlt⟩

/-- A key in the range of a participant that decodes is the key of what it decodes to. -/
theorem makeKey_of_decodeKey {key} (hstart : start ≤ key) (hstop : key < stop)
    (hdecode : config.decodeKey key = .ok id) : key = config.makeKey id := by
  obtain ⟨-, rfl, rfl⟩ := makePrefixRange_eq_ok hrange
  obtain ⟨rest, rfl, -, -⟩ := exists_append_of_le_of_lt hstart hstop
  have hrest : UniqueId.tryFromSlice rest = .ok id := by
    unfold decodeKey domainPrefix at hdecode
    cases hdomain : config.domainId with
    | none => simpa only [hdomain, List.nil_append] using hdecode
    | some domainId =>
      have hlength : (domainIdToBytes domainId).length = 8 := length_toBytes 8 _
      simp only [hdomain, bind_eq_ok] at hdecode
      obtain ⟨-, -, hdecode⟩ := hdecode
      rwa [← hlength, List.drop_left] at hdecode
  rw [makeKey, UniqueId.toBytes_of_tryFromSlice hrest]

end

end AssetStoreConfig

/-! ### What a discard removes -/

/-- A discard that finds only usable assets in the hot queue reports all it removes. -/
theorem DoubleQueue.maybeDiscardOwned_removed {CondVal : Type} [DecidableEq CondVal]
    {condition : CondVal → T → Bool} {self after reads numElementsToProcess ids}
    (hok : maybeDiscardOwned condition self reads numElementsToProcess = .ok (after, ids))
    (hsections : self.cold.Sectioned condition)
    (hhot : ∀ element ∈ self.hot, ∀ value, reads.Queried value → condition value element.2 = true) :
    ∃ left, self.elements.Perm (left ++ after.elements) ∧ ids = left.map Prod.fst ∧
      after.cold.Sectioned condition := by
  obtain ⟨fromCold, fromHot, ⟨hmoves, hdropped⟩, rfl, hwaiting⟩ := maybeDiscardOwned_dropsTo hok
  obtain ⟨hafter, hjustified⟩ := hmoves.sound hsections
  -- what is dropped from the hot queue violates a queried value, which nothing there does
  have hnone : fromHot = [] := by
    refine List.eq_nil_iff_forall_not_mem.mpr fun removed hremoved ↦ ?_
    have hviolates := hjustified removed (List.mem_append_right _ hremoved)
    have hqueried := hdropped removed (List.mem_append_right _ hremoved)
    have hmem := hwaiting removed hremoved
    cases removed with
    | returned => exact hqueried
    | dropped value element =>
      exact Bool.false_ne_true (hviolates.symm.trans (hhot _ hmem _ hqueried))
  subst hnone
  have hperm := hmoves.elements
  rw [List.append_nil] at hperm
  exact ⟨_, hperm, by simp, hafter⟩

/-! ### Memory and database -/

namespace DistributedAssetStorage

variable (config : AssetStoreConfig Value T)

/-- The keys of this node's own records. -/
def ownKeys (db : SecretDB Value) : List DBKey :=
  match config.makePrefixRange config.myParticipantId with
  | .ok (start, stop) => (db.iterRange config.col start stop).map Prod.fst
  | _ => []

variable (self : DistributedAssetStorage Value T)

/-- The ids of the assets in the in-memory queues. -/
def queuedIds : List UniqueId :=
  self.ownedQueue.elements.map Prod.fst

/-- The keys of the queued assets are the own keys of the database. -/
def MirrorsDatabase : Prop :=
  ∀ key, key ∈ ownKeys config self.db ↔ ∃ id ∈ self.queuedIds, key = config.makeKey id

/-- What is kept over a run: also, every id is queued once and the queue is in order. -/
structure Mirrored (store : DistributedAssetStorage Value T) : Prop where
  mirrors : store.MirrorsDatabase config
  once : store.queuedIds.Nodup
  sectioned : store.ownedQueue.cold.Sectioned config.condition
  range : ∃ start stop, config.makePrefixRange config.myParticipantId = .ok (start, stop)

variable {config} {db : SecretDB Value}

theorem mem_ownKeys {start stop key}
    (hrange : config.makePrefixRange config.myParticipantId = .ok (start, stop)) :
    key ∈ ownKeys config db ↔ start ≤ key ∧ key < stop ∧ (db.get config.col key).isSome = true := by
  have hkeys : ownKeys config db = (db.iterRange config.col start stop).map Prod.fst := by
    simp only [ownKeys, hrange]
  simp only [hkeys, SecretDB.iterRange, List.mem_map, List.mem_filter, Prod.exists,
    exists_and_right, exists_eq_right, decide_eq_true_eq, Option.isSome_iff_exists, SecretDB.get]
  constructor
  · rintro ⟨⟨value, hmem⟩, hstart, hstop⟩
    exact ⟨hstart, hstop, value, Std.TreeMap.mem_toList_iff_getElem?_eq_some.mp hmem⟩
  · rintro ⟨hstart, hstop, value, hget⟩
    exact ⟨⟨value, Std.TreeMap.mem_toList_iff_getElem?_eq_some.mpr hget⟩, hstart, hstop⟩

/-- An id of this node is an own key exactly if it is recorded. -/
theorem makeKey_mem_ownKeys {start stop}
    (hrange : config.makePrefixRange config.myParticipantId = .ok (start, stop)) :
    config.makeKey id ∈ ownKeys config db ↔ id.participantId = config.myParticipantId ∧
      (db.get config.col (config.makeKey id)).isSome = true := by
  rw [mem_ownKeys hrange, ← and_assoc, AssetStoreConfig.makeKey_mem_range hrange]

/-- Loading queues one asset for each record, under the id that its key decodes to. -/
theorem loadOwned_elements {records queue after lastId afterId}
    (hok : loadOwned config queue lastId records = .ok (after, afterId))
    (hkeys : ∀ record ∈ records, ∀ id, config.decodeKey record.1 = .ok id →
      record.1 = config.makeKey id) :
    ∃ loaded : List (UniqueId × T), after.elements.Perm (loaded ++ queue.elements) ∧
      after.cold = queue.cold ∧
      records.map Prod.fst = (loaded.map Prod.fst).map config.makeKey := by
  induction records generalizing queue lastId with
  | nil =>
    cases hok
    exact ⟨[], List.Perm.refl _, rfl, rfl⟩
  | cons _ _ ih =>
    obtain ⟨hfirst, hrest⟩ := List.forall_mem_cons.mp hkeys
    simp only [loadOwned, bind_eq_ok] at hok
    obtain ⟨id, hdecode, asset, -, hok⟩ := hok
    obtain ⟨loaded, hperm, hcold, hids⟩ := ih hok hrest
    refine ⟨(id, asset) :: loaded, ?_, hcold, ?_⟩
    · refine hperm.trans ?_
      exact ((queue.addOwned_elements id asset).append_left loaded).trans List.perm_middle
    · simp only [List.map_cons, hids, hfirst id hdecode]

variable {store : DistributedAssetStorage Value T}

/-- A new store mirrors its database. -/
theorem mirrored_of_new {now} (hnew : new config now db = .ok store) : store.Mirrored config := by
  simp only [new, bind_eq_ok, Prod.exists, pure_eq, ok.injEq] at hnew
  obtain ⟨start, stop, hrange, ownedQueue, _, hload, rfl⟩ := hnew
  have hinRange : ∀ record ∈ db.iterRange config.col start stop, ∀ id,
      config.decodeKey record.1 = .ok id → record.1 = config.makeKey id := by
    intro _ hmem _ hdecode
    simp only [SecretDB.iterRange, List.mem_filter, decide_eq_true_eq] at hmem
    exact AssetStoreConfig.makeKey_of_decodeKey hrange hmem.2.1 hmem.2.2 hdecode
  obtain ⟨loaded, hperm, hcold, hkeys⟩ := loadOwned_elements hload hinRange
  rw [DoubleQueue.elements_new, List.append_nil] at hperm
  have hids : (ownedQueue.elements.map Prod.fst).Perm (loaded.map Prod.fst) := hperm.map _
  have hown : ownKeys config db = (loaded.map Prod.fst).map config.makeKey := by
    simp only [ownKeys, hrange, hkeys]
  refine ⟨?_, ?_, ?_, start, stop, hrange⟩
  · intro _
    simp only [hown, List.mem_map, queuedIds, hids.mem_iff, eq_comm]
  · have hnodup := db.nodup_keys_iterRange config.col start stop
    rw [hkeys] at hnodup
    exact hids.nodup_iff.mpr hnodup.of_map
  · rw [hcold]
    exact ColdQueue.sectioned_new config.condition now

/-! ### Operations -/

/-- An added asset with a new id of this node is mirrored. -/
theorem Mirrored.addOwned (hmirrored : store.Mirrored config) {value}
    (hown : id.participantId = config.myParticipantId) (hnew : id ∉ store.queuedIds) :
    (store.addOwned config id value).Mirrored config := by
  obtain ⟨start, stop, hrange⟩ := hmirrored.range
  have hids : (store.addOwned config id value).queuedIds.Perm (id :: store.queuedIds) :=
    (store.ownedQueue.addOwned_elements id value).map Prod.fst
  refine ⟨?_, ?_, hmirrored.sectioned, start, stop, hrange⟩
  · intro key
    have hbefore := hmirrored.mirrors key
    rw [mem_ownKeys hrange] at hbefore ⊢
    simp only [hids.mem_iff, List.mem_cons, exists_eq_or_imp]
    simp only [DistributedAssetStorage.addOwned, SecretDB.get_put]
    by_cases hkey : config.makeKey id = key
    · have hinRange := (AssetStoreConfig.makeKey_mem_range hrange id).mpr hown
      rw [hkey] at hinRange
      simp [hkey, hinRange]
    · rw [if_neg hkey, hbefore, or_iff_right (Ne.symm hkey)]
  · exact hids.nodup_iff.mpr (List.nodup_cons.mpr ⟨hnew, hmirrored.once⟩)

/-- Elements leave the queues together with the records under their ids. -/
theorem Mirrored.remove (hmirrored : store.Mirrored config) {left ownedQueue}
    (hqueue : store.ownedQueue.elements.Perm (left ++ ownedQueue.elements))
    (hdb : ∀ key, db.get config.col key =
      if key ∈ (left.map Prod.fst).map config.makeKey then none else store.db.get config.col key)
    (hsections : ownedQueue.cold.Sectioned config.condition) :
    ({ store with ownedQueue, db } : DistributedAssetStorage Value T).Mirrored config := by
  obtain ⟨start, stop, hrange⟩ := hmirrored.range
  have hids : store.queuedIds.Perm (left.map Prod.fst ++ ownedQueue.elements.map Prod.fst) := by
    rw [← List.map_append]
    exact hqueue.map Prod.fst
  have hnodup := hids.nodup_iff.mp hmirrored.once
  refine ⟨?_, (List.nodup_append.mp hnodup).2.1, hsections, start, stop, hrange⟩
  intro key
  have hbefore := hmirrored.mirrors key
  rw [mem_ownKeys hrange] at hbefore ⊢
  simp only [hdb, queuedIds]
  by_cases hleft : key ∈ (left.map Prod.fst).map config.makeKey
  · -- the key of an element that left, and no other element has its id
    obtain ⟨_, hid, rfl⟩ := List.mem_map.mp hleft
    rw [if_pos hleft]
    simp only [Option.isSome_none, Bool.false_eq_true, and_false, false_iff, not_exists, not_and]
    intro other hother hsame
    rw [config.makeKey_injective hsame] at hid
    exact (List.nodup_append.mp hnodup).2.2 other hid other hother rfl
  · rw [if_neg hleft, hbefore]
    constructor
    · rintro ⟨id, hid, rfl⟩
      refine ⟨id, ?_, rfl⟩
      rcases List.mem_append.mp (hids.subset hid) with hgone | hkept
      · exact absurd (List.mem_map_of_mem hgone) hleft
      · exact hkept
    · rintro ⟨id, hid, rfl⟩
      exact ⟨id, hids.symm.subset (List.mem_append_right _ hid), rfl⟩

theorem Mirrored.finishTake (hmirrored : store.Mirrored config) {outcome}
    (hqueue : store.ownedQueue.elements.Perm (outcome.2.toList ++ outcome.1.elements))
    (hsections : outcome.1.cold.Sectioned config.condition) :
    (store.finishTake config outcome).1.Mirrored config := by
  obtain ⟨_, taken⟩ := outcome
  cases taken with
  | none => exact hmirrored.remove hqueue (by simp) hsections
  | some => exact hmirrored.remove hqueue (by simp [eq_comm]) hsections

theorem Mirrored.maybeDiscardOwned {after} (hmirrored : store.Mirrored config)
    {reads numAssetsToProcess}
    (hok : store.maybeDiscardOwned config reads numAssetsToProcess = .ok after)
    (hhot : ∀ element ∈ store.ownedQueue.hot, ∀ value, reads.Queried value →
      config.condition value element.2 = true) : after.Mirrored config := by
  simp only [DistributedAssetStorage.maybeDiscardOwned, bind_eq_ok, Prod.exists, pure_eq,
    ok.injEq] at hok
  obtain ⟨_, _, hdiscard, rfl⟩ := hok
  obtain ⟨_, hqueue, rfl, hsections⟩ :=
    DoubleQueue.maybeDiscardOwned_removed hdiscard hmirrored.sectioned hhot
  exact hmirrored.remove hqueue (store.db.get_foldl_delete config.col config.makeKey _) hsections

/-- The operations on the owned assets of one store, with the readings they make. -/
inductive OwnedOp (T : Type) where
  | addOwned (id : UniqueId) (value : T)
  | takeOwned (read : ColdRead (List ParticipantId)) (polls : List (TakePoll (List ParticipantId)))
  | resumeTakeOwned (polls : List (TakePoll (List ParticipantId)))
  | maybeDiscardOwned (reads : DiscardReads (List ParticipantId)) (numAssetsToProcess : ℕ)
  | restart (now : ℕ)

variable (config)

/-- The store after an operation; one that does not complete leaves it. -/
def ownedStep (store : DistributedAssetStorage Value T) :
    OwnedOp T → DistributedAssetStorage Value T
  | .addOwned id value => store.addOwned config id value
  | .takeOwned read polls =>
      match store.takeOwned config read polls with
      | .ok (after, _) => after
      | _ => store
  | .resumeTakeOwned polls =>
      match store.resumeTakeOwned config polls with
      | .ok (after, _) => after
      | _ => store
  | .maybeDiscardOwned reads numAssetsToProcess =>
      match store.maybeDiscardOwned config reads numAssetsToProcess with
      | .ok after => after
      | _ => store
  | .restart now =>
      match new config now store.db with
      | .ok after => after
      | _ => store

/-- An added asset has an id of this node that is not in use, and a discard finds only assets in
the hot queue that are usable under every condition value it queries. -/
def MirrorsHot (store : DistributedAssetStorage Value T) : OwnedOp T → Prop
  | .addOwned id _ => id.participantId = config.myParticipantId ∧ id ∉ store.queuedIds
  | .maybeDiscardOwned reads _ => ∀ element ∈ store.ownedQueue.hot, ∀ value, reads.Queried value →
      config.condition value element.2 = true
  | _ => True

variable {config}

theorem Mirrored.ownedStep (hmirrored : store.Mirrored config) {op}
    (hmeets : store.MirrorsHot config op) : (ownedStep config store op).Mirrored config := by
  cases op with
  | addOwned => exact hmirrored.addOwned hmeets.1 hmeets.2
  | takeOwned read polls =>
    simp only [DistributedAssetStorage.ownedStep, DistributedAssetStorage.takeOwned]
    cases htake : store.ownedQueue.takeOwned config.condition read polls with
    | ok =>
      have hmoves := DoubleQueue.takeOwned_movesTo htake
      exact hmirrored.finishTake hmoves.elements_of_taken
        (hmoves.sound hmirrored.sectioned).1
    | err | panicked => exact hmirrored
  | resumeTakeOwned polls =>
    simp only [DistributedAssetStorage.ownedStep, DistributedAssetStorage.resumeTakeOwned]
    cases htake : store.ownedQueue.takeLoop config.condition polls with
    | ok =>
      have hmoves := DoubleQueue.takeLoop_movesTo htake
      exact hmirrored.finishTake hmoves.elements_of_taken
        (hmoves.sound hmirrored.sectioned).1
    | err | panicked => exact hmirrored
  | maybeDiscardOwned reads numAssetsToProcess =>
    simp only [DistributedAssetStorage.ownedStep]
    cases hdiscard : store.maybeDiscardOwned config reads numAssetsToProcess with
    | ok => exact hmirrored.maybeDiscardOwned hdiscard hmeets
    | err | panicked => exact hmirrored
  | restart now =>
    simp only [DistributedAssetStorage.ownedStep]
    cases hnew : new config now store.db with
    | ok => exact mirrored_of_new hnew
    | err | panicked => exact hmirrored

/-! ### A store of assets that need one participant -/

namespace OneParticipantStore

/-- An asset is the participant it needs to be alive. -/
def tripleConfig : AssetStoreConfig ℕ ParticipantId where
  codec :=
    { toValue := fun participantId ↦ participantId.toNat
      fromValue := fun value ↦ some (UInt32.ofNat value)
      fromValue_toValue := by simp }
  col := .triple
  domainId := none
  myParticipantId := 1
  condition := fun alive participantId ↦ alive.contains participantId

def emptyStore : DistributedAssetStorage ℕ ParticipantId where
  db := SecretDB.empty
  ownedQueue := .new 0
  lastId := none

theorem new_emptyStore : new tripleConfig 0 SecretDB.empty = .ok emptyStore := rfl

def ownId : UniqueId := UniqueId.new 1 100 0

variable (alive : List ParticipantId)

/-- Readings that find the given participants alive. -/
def reads : DiscardReads (List ParticipantId) where
  start := ⟨0, alive⟩
  cold := fun _ ↦ ⟨0, alive⟩
  hot := fun _ ↦ ⟨0, alive⟩

/-- A discard that may process one asset. -/
def discard : OwnedOp ParticipantId :=
  .maybeDiscardOwned (reads alive) 1

end OneParticipantStore

open OneParticipantStore

/-- In every run of a store over any database whose adds use new ids of this node and whose
discards find only usable assets in the hot queue, the ids in memory are the own keys of the
database, and a restart queues exactly the same ids. -/
theorem memory_mirrors_database {config : AssetStoreConfig Value T} {now : ℕ} {db : SecretDB Value}
    {store : DistributedAssetStorage Value T} (hnew : new config now db = .ok store)
    {ops : List (OwnedOp T)}
    (hmeet : StepsMeet (ownedStep config) (MirrorsHot config) store ops) :
    (run (ownedStep config) store ops).MirrorsDatabase config ∧
      ∀ later restarted, new config later (run (ownedStep config) store ops).db = .ok restarted →
        ∀ id, id ∈ restarted.queuedIds ↔ id ∈ (run (ownedStep config) store ops).queuedIds := by
  have hmirrored : (run (ownedStep config) store ops).Mirrored config :=
    hmeet.invariant (mirrored_of_new hnew) fun _ _ hmeets hbefore ↦ hbefore.ownedStep hmeets
  refine ⟨hmirrored.mirrors, fun later restarted hrestart id ↦ ?_⟩
  have hafter := (mirrored_of_new hrestart).mirrors (config.makeKey id)
  have hbefore := hmirrored.mirrors (config.makeKey id)
  have hdb : restarted.db = (run (ownedStep config) store ops).db := by
    simp only [new, bind_eq_ok, Prod.exists, pure_eq, ok.injEq] at hrestart
    obtain ⟨_, _, -, _, _, -, rfl⟩ := hrestart
    rfl
  rw [hdb, hbefore] at hafter
  simpa only [config.makeKey_injective.eq_iff, exists_eq_right'] using hafter.symm

/-- An asset is added and examined while the participant it needs is alive. -/
theorem memory_mirrors_database_alive :
    (run (ownedStep tripleConfig) emptyStore
      [.addOwned ownId 2, discard [1, 2]]).MirrorsDatabase tripleConfig := by
  have hmeet : StepsMeet (ownedStep tripleConfig) (MirrorsHot tripleConfig) emptyStore
      [.addOwned ownId 2, discard [1, 2]] := by
    refine ⟨⟨by decide +kernel, by decide +kernel⟩, ?_, trivial⟩
    intro element hmem value hqueried
    have hvalue : value = [1, 2] := by
      rcases hqueried with hread | ⟨_, hread⟩ | ⟨_, hread⟩ <;> exact hread
    rw [List.mem_singleton.mp hmem, hvalue]
    rfl
  exact (memory_mirrors_database new_emptyStore hmeet).1

/-- A new asset of this node is examined while the participant it needs is offline. It leaves the
memory, its record stays, and a restart brings it back. -/
theorem dropped_hot_asset_stays_recorded :
    new tripleConfig 0 SecretDB.empty = .ok emptyStore ∧
      ¬ (run (ownedStep tripleConfig) emptyStore
        [.addOwned ownId 2, discard [1]]).MirrorsDatabase tripleConfig ∧
      (run (ownedStep tripleConfig) emptyStore [.addOwned ownId 2, discard [1]]).queuedIds = [] ∧
      (run (ownedStep tripleConfig) emptyStore
        [.addOwned ownId 2, discard [1], .restart 5]).queuedIds = [ownId] := by
  have hqueued : (run (ownedStep tripleConfig) emptyStore
      [.addOwned ownId 2, discard [1]]).queuedIds = [] := by decide +kernel
  refine ⟨new_emptyStore, ?_, hqueued, by decide +kernel⟩
  intro hmirrors
  have hkey : tripleConfig.makeKey ownId ∈ ownKeys tripleConfig
      (run (ownedStep tripleConfig) emptyStore [.addOwned ownId 2, discard [1]]).db := by
    decide +kernel
  obtain ⟨id, hid, -⟩ := (hmirrors _).mp hkey
  rw [hqueued] at hid
  exact List.not_mem_nil hid

end DistributedAssetStorage

end NearMpc.Node
