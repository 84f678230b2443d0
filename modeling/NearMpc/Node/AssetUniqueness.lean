import NearMpc.Node.AssetStorage
import NearMpc.Node.QueueSections

/-!
# Every asset is handed out at most once

Runs of one asset store, restarts included. Each asset that is added gets a serial number, so that
the asset stored by one add can be told from every other, whatever their ids and contents.

An owned asset lives twice, in the database and in memory. `Accounted` is the invariant of the two
copies: a serial number is recorded under one id at most, is queued at most once, and where it is
both recorded and queued the ids agree. A take from the queue deletes the record under the same
id, so it removes both copies. A take from the database looks at the record alone:
`TakesNoQueuedAsset` is the condition that its id is not queued.
-/

set_option autoImplicit false

namespace NearMpc.Node

open Library Library.Outcome DistributedAssetStorage

variable {Value T : Type}

/-- An asset together with the number of the add that stored it. -/
structure Deposit (T : Type) where
  serial : ℕ
  value : T
deriving DecidableEq, Repr

structure StoreRun (Value T : Type) where
  store : DistributedAssetStorage Value (Deposit T)
  nextSerial : ℕ

/-- The operations on a store, with the readings they make. The ids are arbitrary. -/
inductive StoreOp (T : Type) where
  | addOwned (id : UniqueId) (value : T)
  | addUnowned (id : UniqueId) (value : T)
  | takeOwned (read : ColdRead (List ParticipantId)) (polls : List (TakePoll (List ParticipantId)))
  | resumeTakeOwned (polls : List (TakePoll (List ParticipantId)))
  | takeUnowned (id : UniqueId)
  | maybeDiscardOwned (reads : DiscardReads (List ParticipantId)) (numAssetsToProcess : ℕ)
  | restart (now : ℕ)

namespace StoreRun

variable (config : AssetStoreConfig Value (Deposit T)) (run : StoreRun Value T) (op : StoreOp T)

/-- One operation: the state after it and the asset it hands out, if any. -/
def step : StoreRun Value T × Option (Deposit T) :=
  match op with
  | .addOwned id value =>
      ({ store := run.store.addOwned config id { serial := run.nextSerial, value }
         nextSerial := run.nextSerial + 1 }, none)
  | .addUnowned id value =>
      ({ store := run.store.addUnowned config id { serial := run.nextSerial, value }
         nextSerial := run.nextSerial + 1 }, none)
  | .takeOwned read polls =>
      match run.store.takeOwned config read polls with
      | .ok (store, taken) => ({ run with store }, taken.map Prod.snd)
      | _ => (run, none)
  | .resumeTakeOwned polls =>
      match run.store.resumeTakeOwned config polls with
      | .ok (store, taken) => ({ run with store }, taken.map Prod.snd)
      | _ => (run, none)
  | .takeUnowned id =>
      match run.store.takeUnowned config id with
      | (store, .ok asset) => ({ run with store }, some asset)
      | (store, _) => ({ run with store }, none)
  | .maybeDiscardOwned reads numAssetsToProcess =>
      match run.store.maybeDiscardOwned config reads numAssetsToProcess with
      | .ok store => ({ run with store }, none)
      | _ => (run, none)
  | .restart now =>
      match new config now run.store.db with
      | .ok store => ({ run with store }, none)
      | _ => (run, none)

def apply : StoreRun Value T := (step config run op).1

/-- The serial numbers of the assets that a run hands out, oldest first. -/
def handedOut : StoreRun Value T → List (StoreOp T) → List ℕ
  | _, [] => []
  | run, op :: rest =>
      ((step config run op).2.map Deposit.serial).toList ++ handedOut (apply config run op) rest

/-- The assets held in memory. -/
def queued : List (UniqueId × Deposit T) := run.store.ownedQueue.elements

/-- No asset is taken as unowned under an id that the in-memory queue of owned assets holds. -/
def TakesNoQueuedAsset : Prop :=
  match op with
  | .takeUnowned id => id ∉ run.queued.map Prod.fst
  | _ => True

instance (run : StoreRun Value T) (op : StoreOp T) : Decidable (run.TakesNoQueuedAsset op) := by
  unfold TakesNoQueuedAsset
  cases op <;> infer_instance

/-! ### The two copies of an asset -/

/-- The database holds the asset under the id. -/
def Recorded (id : UniqueId) (asset : Deposit T) : Prop :=
  run.store.db.get config.col (config.makeKey id) = some (config.codec.toValue asset)

/-- The serial number is in the database or in memory. -/
def Held (serial : ℕ) : Prop :=
  (∃ id asset, run.Recorded config id asset ∧ asset.serial = serial) ∨
    ∃ element ∈ run.queued, element.2.serial = serial

structure Accounted (run : StoreRun Value T) : Prop where
  records : ∀ key value, run.store.db.get config.col key = some value →
    ∃ id asset, key = config.makeKey id ∧ value = config.codec.toValue asset
  heldBelow : ∀ serial, run.Held config serial → serial < run.nextSerial
  recordedOnce : ∀ id asset otherId otherAsset, run.Recorded config id asset →
    run.Recorded config otherId otherAsset → asset.serial = otherAsset.serial → id = otherId
  queuedOnce : (run.queued.map fun element ↦ element.2.serial).Nodup
  agree : ∀ id asset, run.Recorded config id asset → ∀ element ∈ run.queued,
    element.2.serial = asset.serial → element.1 = id

/-- What one operation does: the invariant is kept, only a new asset starts to be held, and an
asset that is handed out was held before and is held no longer. -/
structure StepAccounted (before after : StoreRun Value T) (out : Option (Deposit T)) : Prop where
  accounted : after.Accounted config
  serials : before.nextSerial ≤ after.nextSerial
  held : ∀ serial, after.Held config serial →
    before.Held config serial ∨ before.nextSerial ≤ serial
  handed : ∀ asset ∈ out, before.Held config asset.serial ∧ ¬ after.Held config asset.serial

/-- The second state has lost records or elements and gained none. -/
structure Shrinks (before after : StoreRun Value T) : Prop where
  nextSerial : after.nextSerial = before.nextSerial
  records : ∀ key value, after.store.db.get config.col key = some value →
    before.store.db.get config.col key = some value
  queued : after.queued.Subperm before.queued

variable {config} {before after : StoreRun Value T}

/-- An id has one record. -/
theorem Recorded.unique {run : StoreRun Value T} {id : UniqueId} {first second : Deposit T}
    (hfirst : run.Recorded config id first) (hsecond : run.Recorded config id second) :
    first = second := by
  have hvalues := congrArg config.codec.fromValue (Option.some_inj.mp (hfirst.symm.trans hsecond))
  rw [config.codec.fromValue_toValue, config.codec.fromValue_toValue] at hvalues
  exact Option.some_inj.mp hvalues

theorem Shrinks.held (hshrinks : Shrinks config before after) {serial}
    (hheld : after.Held config serial) : before.Held config serial := by
  rcases hheld with ⟨id, asset, hrecorded, hserial⟩ | ⟨element, hmem, hserial⟩
  · exact .inl ⟨id, asset, hshrinks.records _ _ hrecorded, hserial⟩
  · exact .inr ⟨element, hshrinks.queued.subset hmem, hserial⟩

section

variable (haccount : before.Accounted config)
include haccount

theorem Accounted.shrinks (hshrinks : Shrinks config before after) : after.Accounted config where
  records := fun key value hget ↦ haccount.records key value (hshrinks.records key value hget)
  heldBelow := fun serial hheld ↦
    hshrinks.nextSerial ▸ haccount.heldBelow serial (hshrinks.held hheld)
  recordedOnce := fun id asset otherId otherAsset hrecorded hother ↦
    haccount.recordedOnce id asset otherId otherAsset (hshrinks.records _ _ hrecorded)
      (hshrinks.records _ _ hother)
  queuedOnce := by
    obtain ⟨_, hperm, hsublist⟩ := hshrinks.queued
    exact (hperm.map _).nodup_iff.mp (haccount.queuedOnce.sublist (hsublist.map _))
  agree := fun id asset hrecorded element hmem ↦
    haccount.agree id asset (hshrinks.records _ _ hrecorded) element (hshrinks.queued.subset hmem)

/-- A step that only loses copies and hands out nothing. -/
theorem Accounted.stepAccounted_shrinks (hshrinks : Shrinks config before after) :
    StepAccounted config before after none where
  accounted := haccount.shrinks hshrinks
  serials := hshrinks.nextSerial.ge
  held := fun _ hheld ↦ .inl (hshrinks.held hheld)
  handed := by simp

theorem Accounted.stepAccounted_refl : StepAccounted config before before none :=
  haccount.stepAccounted_shrinks ⟨rfl, fun _ _ hget ↦ hget, List.Subperm.refl _⟩

/-! ### Taking and discarding -/

/-- Taking from the queue removes the element and the record under its id, hence both copies. -/
theorem Accounted.stepAccounted_finishTake {outcome}
    (helements : before.queued.Perm (outcome.2.toList ++ outcome.1.elements)) :
    StepAccounted config before
      { before with store := (before.store.finishTake config outcome).1 }
      ((before.store.finishTake config outcome).2.map Prod.snd) := by
  obtain ⟨ownedQueue, taken⟩ := outcome
  cases taken with
  | none =>
    exact haccount.stepAccounted_shrinks ⟨rfl, fun _ _ hget ↦ hget, helements.symm.subperm⟩
  | some element =>
    obtain ⟨id, asset⟩ := element
    have hqueued : (id, asset) ∈ before.queued := helements.symm.subset (List.mem_cons_self)
    have hshrinks : Shrinks config before { before with
        store := (before.store.finishTake config (ownedQueue, some (id, asset))).1 } := by
      refine ⟨rfl, ?_, (List.sublist_cons_self _ _).subperm.trans helements.symm.subperm⟩
      intro _ _ hget
      simp only [finishTake, SecretDB.get_delete] at hget
      split_ifs at hget
      exact hget
    refine ⟨haccount.shrinks hshrinks, le_rfl, fun _ hheld ↦ .inl (hshrinks.held hheld), ?_⟩
    rintro _ ⟨⟩
    refine ⟨.inr ⟨_, hqueued, rfl⟩, ?_⟩
    rintro (⟨otherId, otherAsset, hrecorded, hserial⟩ | ⟨_, hmem, hserial⟩)
    · -- a record with this serial number is under this id, and that one was deleted
      have hsame : id = otherId :=
        haccount.agree otherId otherAsset (hshrinks.records _ _ hrecorded) (id, asset) hqueued
          hserial.symm
      simp [Recorded, finishTake, hsame] at hrecorded
    · have hnodup := (helements.map fun element ↦ element.2.serial).nodup_iff.mp haccount.queuedOnce
      simp only [Option.toList_some, List.singleton_append, List.map_cons,
        List.nodup_cons] at hnodup
      exact hnodup.1 (hserial ▸ List.mem_map_of_mem hmem)

/-- Taking a record whose id is not queued removes the only copy. -/
theorem Accounted.stepAccounted_takeUnowned {id} (hqueue : id ∉ before.queued.map Prod.fst) :
    StepAccounted config before (step config before (.takeUnowned id)).1
      (step config before (.takeUnowned id)).2 := by
  simp only [step, takeUnowned, AssetStoreConfig.takeUnowned]
  cases hget : before.store.db.get config.col (config.makeKey id) with
  | none => exact haccount.stepAccounted_refl
  | some value =>
    obtain ⟨_, asset, _, rfl⟩ := haccount.records _ _ hget
    have hshrinks : Shrinks config before { before with
        store := { before.store with
          db := before.store.db.delete config.col (config.makeKey id) } } := by
      refine ⟨rfl, ?_, List.Subperm.refl _⟩
      intro _ _ hdeleted
      simp only [SecretDB.get_delete] at hdeleted
      split_ifs at hdeleted
      exact hdeleted
    simp only [config.codec.fromValue_toValue, okOr]
    refine ⟨haccount.shrinks hshrinks, le_rfl, fun _ hheld ↦ .inl (hshrinks.held hheld), ?_⟩
    rintro _ ⟨⟩
    refine ⟨.inl ⟨id, asset, hget, rfl⟩, ?_⟩
    rintro (⟨otherId, otherAsset, hrecorded, hserial⟩ | ⟨element, hmem, hserial⟩)
    · have hsame : otherId = id := haccount.recordedOnce otherId otherAsset id asset
        (hshrinks.records _ _ hrecorded) hget hserial
      simp [Recorded, hsame] at hrecorded
    · have hsame : element.1 = id := haccount.agree id asset hget element hmem hserial
      exact hqueue (hsame ▸ List.mem_map_of_mem hmem)

end

variable {store : DistributedAssetStorage Value (Deposit T)}

theorem Accounted.stepAccounted_maybeDiscardOwned (haccount : before.Accounted config)
    {reads numAssetsToProcess}
    (hok : before.store.maybeDiscardOwned config reads numAssetsToProcess = .ok store) :
    StepAccounted config before { before with store } none := by
  simp only [maybeDiscardOwned, bind_eq_ok, Prod.exists, pure_eq, ok.injEq] at hok
  obtain ⟨_, removed, hdiscard, rfl⟩ := hok
  obtain ⟨_, _, hdrops, -⟩ := DoubleQueue.maybeDiscardOwned_dropsTo hdiscard
  refine haccount.stepAccounted_shrinks ⟨rfl, fun _ _ hget ↦ ?_, hdrops.elements⟩
  rw [SecretDB.get_foldl_delete] at hget
  split_ifs at hget
  exact hget

/-! ### Adding and restarting -/

/-- Adding an asset records it under its id, in place of what was there, and may queue it. -/
theorem Accounted.stepAccounted_add (haccount : before.Accounted config) {id asset}
    (hserial : asset.serial = before.nextSerial) (hnext : after.nextSerial = before.nextSerial + 1)
    (hdb : after.store.db = before.store.db.put config.col (config.makeKey id)
      (config.codec.toValue asset)) (hqueued : after.queued.Subperm ((id, asset) :: before.queued))
    :
    StepAccounted config before after none := by
  have hrecorded : ∀ otherId otherAsset, after.Recorded config otherId otherAsset →
      otherId = id ∧ otherAsset.serial = before.nextSerial ∨
        before.Recorded config otherId otherAsset := by
    intro _ otherAsset hother
    rw [Recorded, hdb, SecretDB.get_put] at hother
    split_ifs at hother with hkey
    · have hasset : asset = otherAsset := by
        have hdecoded := congrArg config.codec.fromValue (Option.some_inj.mp hother)
        rw [config.codec.fromValue_toValue, config.codec.fromValue_toValue] at hdecoded
        exact Option.some_inj.mp hdecoded
      exact .inl ⟨(config.makeKey_injective hkey).symm, hasset ▸ hserial⟩
    · exact .inr hother
  have helement : ∀ element ∈ after.queued,
      element = (id, asset) ∨ element ∈ before.queued :=
    fun element hmem ↦ List.mem_cons.mp (hqueued.subset hmem)
  have hbelowRecord : ∀ otherId otherAsset, before.Recorded config otherId otherAsset →
      otherAsset.serial < before.nextSerial :=
    fun otherId otherAsset hother ↦
      haccount.heldBelow _ (.inl ⟨otherId, otherAsset, hother, rfl⟩)
  have hbelowQueued : ∀ element ∈ before.queued, element.2.serial < before.nextSerial :=
    fun element hmem ↦ haccount.heldBelow _ (.inr ⟨element, hmem, rfl⟩)
  have hheld : ∀ serial, after.Held config serial →
      before.Held config serial ∨ serial = before.nextSerial := by
    rintro _ (⟨otherId, otherAsset, hother, rfl⟩ | ⟨element, hmem, rfl⟩)
    · rcases hrecorded otherId otherAsset hother with ⟨-, hnew⟩ | hold
      · exact .inr hnew
      · exact .inl (.inl ⟨otherId, otherAsset, hold, rfl⟩)
    · rcases helement element hmem with rfl | hold
      · exact .inr hserial
      · exact .inl (.inr ⟨element, hold, rfl⟩)
  refine ⟨⟨?_, ?_, ?_, ?_, ?_⟩, by omega, ?_, by simp⟩
  · intro key value hget
    rw [hdb, SecretDB.get_put] at hget
    split_ifs at hget with hkey
    · exact ⟨id, asset, hkey.symm, (Option.some_inj.mp hget).symm⟩
    · exact haccount.records key value hget
  · intro serial hserials
    rw [hnext]
    rcases hheld serial hserials with hold | rfl
    · exact (haccount.heldBelow serial hold).trans (Nat.lt_succ_self _)
    · exact Nat.lt_succ_self _
  · intro firstId first secondId second hfirst hsecond hsame
    rcases hrecorded firstId first hfirst with ⟨rfl, hnew⟩ | hold
    · rcases hrecorded secondId second hsecond with ⟨rfl, -⟩ | hold
      · rfl
      · have hlt := hbelowRecord secondId second hold
        omega
    · rcases hrecorded secondId second hsecond with ⟨rfl, hnew⟩ | hold'
      · have hlt := hbelowRecord firstId first hold
        omega
      · exact haccount.recordedOnce firstId first secondId second hold hold' hsame
  · obtain ⟨_, hperm, hsublist⟩ := hqueued
    refine (hperm.map _).nodup_iff.mp (List.Nodup.sublist (hsublist.map _) ?_)
    rw [List.map_cons, List.nodup_cons]
    refine ⟨?_, haccount.queuedOnce⟩
    intro hmem
    obtain ⟨element, hmem, hsame⟩ := List.mem_map.mp hmem
    have hlt := hbelowQueued element hmem
    simp only at hsame
    omega
  · intro otherId otherAsset hother element hmem hsame
    rcases helement element hmem with rfl | hold
    · rcases hrecorded otherId otherAsset hother with ⟨rfl, -⟩ | hrecord
      · rfl
      · have hlt := hbelowRecord otherId otherAsset hrecord
        simp only at hsame
        omega
    · rcases hrecorded otherId otherAsset hother with ⟨rfl, hnew⟩ | hrecord
      · have hlt := hbelowQueued element hold
        omega
      · exact haccount.agree otherId otherAsset hrecord element hold hsame
  · intro serial hserials
    rcases hheld serial hserials with hold | rfl
    · exact .inl hold
    · exact .inr le_rfl

/-- A restart replaces the memory by the owned records. -/
theorem Accounted.stepAccounted_restart (haccount : before.Accounted config) {now : ℕ}
    (hok : new config now before.store.db = .ok store) :
    StepAccounted config before { before with store } none := by
  simp only [new, bind_eq_ok, Prod.exists, pure_eq, ok.injEq] at hok
  obtain ⟨start, stop, -, ownedQueue, lastId, hload, rfl⟩ := hok
  -- every record in the range is the record of an asset
  obtain ⟨loaded, hloaded⟩ : before.store.db.iterRange config.col start stop ∈
      Set.range (List.map (recordOf config)) := by
    rw [Set.range_list_map]
    rintro ⟨key, value⟩ hmem
    obtain ⟨id, asset, rfl, rfl⟩ := haccount.records key value (SecretDB.get_of_mem_iterRange hmem)
    exact ⟨(id, asset), rfl⟩
  obtain ⟨_, _, hafter, hperm⟩ :=
    loadOwned_recordOf config loaded (.new now) none
  rw [hloaded, hload] at hafter
  cases hafter
  rw [DoubleQueue.elements_new, List.append_nil] at hperm
  have hrecorded : ∀ element ∈ loaded, before.Recorded config element.1 element.2 := by
    intro element hmem
    have hrecord : recordOf config element ∈
        before.store.db.iterRange config.col start stop := by
      rw [← hloaded]
      exact List.mem_map_of_mem hmem
    exact SecretDB.get_of_mem_iterRange hrecord
  have hloadedOnce : loaded.Nodup := by
    have hkeys := before.store.db.nodup_keys_iterRange config.col start stop
    rw [← hloaded] at hkeys
    exact (hkeys.of_map _).of_map _
  have hserialOnce : ∀ element ∈ loaded, ∀ other ∈ loaded,
      element.2.serial = other.2.serial → element = other := by
    intro element hmem other hother hsame
    have hid := haccount.recordedOnce _ _ _ _ (hrecorded element hmem) (hrecorded other hother)
      hsame
    exact Prod.ext hid (Recorded.unique (hrecorded element hmem) (hid ▸ hrecorded other hother))
  have hheld : ∀ serial, ({ before with store := { before.store with ownedQueue, lastId } } :
      StoreRun Value T).Held config serial → before.Held config serial := by
    rintro _ (hrecord | ⟨element, hmem, hserial⟩)
    · exact .inl hrecord
    · exact .inl ⟨_, _, hrecorded element (hperm.subset hmem), hserial⟩
  refine ⟨⟨haccount.records, fun serial hserial ↦ haccount.heldBelow serial (hheld serial hserial),
    haccount.recordedOnce, ?_, ?_⟩, le_rfl, fun serial hserial ↦ .inl (hheld serial hserial),
    by simp⟩
  · exact (hperm.map _).nodup_iff.mpr (hloadedOnce.map_on hserialOnce)
  · intro _ _ hrecord element hmem hsame
    exact haccount.recordedOnce _ _ _ _ (hrecorded element (hperm.subset hmem)) hrecord hsame

/-! ### Runs -/

variable (config) in
/-- A fresh store over an empty database. -/
def Fresh (run : StoreRun Value T) : Prop :=
  run.nextSerial = 0 ∧ ∃ now, new config now SecretDB.empty = .ok run.store

variable {run : StoreRun Value T}

theorem Fresh.accounted (hfresh : Fresh config run) : run.Accounted config := by
  obtain ⟨hserial, now, hnew⟩ := hfresh
  have hempty : ({ store := ⟨SecretDB.empty, .new now, none⟩, nextSerial := 0 } :
      StoreRun Value T).Accounted config := by
    refine ⟨by simp, ?_, by simp [Recorded], by simp [queued], by simp [Recorded]⟩
    rintro _ (⟨_, _, hrecorded, -⟩ | ⟨_, hmem, -⟩)
    · simp [Recorded] at hrecorded
    · simp [queued] at hmem
  have hrestart := (hempty.stepAccounted_restart hnew).accounted
  cases run
  simp only at hserial
  rw [hserial]
  exact hrestart

/-- Every operation that meets the condition keeps account of the assets. -/
theorem Accounted.stepAccounted_step (haccount : run.Accounted config) {op}
    (htakes : run.TakesNoQueuedAsset op) :
    StepAccounted config run (step config run op).1 (step config run op).2 := by
  cases op with
  | addOwned id =>
    exact haccount.stepAccounted_add rfl rfl rfl
      (run.store.ownedQueue.addOwned_elements id _).subperm
  | addUnowned =>
    exact haccount.stepAccounted_add rfl rfl rfl (List.sublist_cons_self _ _).subperm
  | takeOwned read polls =>
    simp only [step, takeOwned]
    cases htake : run.store.ownedQueue.takeOwned config.condition read polls with
    | ok =>
      exact haccount.stepAccounted_finishTake
        (DoubleQueue.takeOwned_movesTo htake).elements_of_taken
    | err | panicked => exact haccount.stepAccounted_refl
  | resumeTakeOwned polls =>
    simp only [step, resumeTakeOwned]
    cases htake : run.store.ownedQueue.takeLoop config.condition polls with
    | ok =>
      exact haccount.stepAccounted_finishTake (DoubleQueue.takeLoop_movesTo htake).elements_of_taken
    | err | panicked => exact haccount.stepAccounted_refl
  | takeUnowned => exact haccount.stepAccounted_takeUnowned htakes
  | maybeDiscardOwned reads numAssetsToProcess =>
    simp only [step]
    cases hdiscard : run.store.maybeDiscardOwned config reads numAssetsToProcess with
    | ok => exact haccount.stepAccounted_maybeDiscardOwned hdiscard
    | err | panicked => exact haccount.stepAccounted_refl
  | restart now =>
    simp only [step]
    cases hnew : new config now run.store.db with
    | ok => exact haccount.stepAccounted_restart hnew
    | err | panicked => exact haccount.stepAccounted_refl

/-- The serial numbers handed out are distinct, and each was held at the start or added since. -/
theorem Accounted.handedOut_nodup (haccount : run.Accounted config) {ops}
    (hmeet : StepsMeet (apply config) TakesNoQueuedAsset run ops) :
    (handedOut config run ops).Nodup ∧ ∀ serial ∈ handedOut config run ops,
      run.Held config serial ∨ run.nextSerial ≤ serial := by
  induction ops generalizing run with
  | nil => exact ⟨List.nodup_nil, by simp [handedOut]⟩
  | cons op rest ih =>
    have hstep := haccount.stepAccounted_step hmeet.1
    obtain ⟨hnodup, hlater⟩ := ih hstep.accounted hmeet.2
    have hheld : ∀ serial ∈ handedOut config (apply config run op) rest,
        run.Held config serial ∨ run.nextSerial ≤ serial := by
      intro serial hmem
      rcases hlater serial hmem with hafter | hnew
      · exact hstep.held serial hafter
      · exact .inr (hstep.serials.trans hnew)
    unfold handedOut
    cases hout : (step config run op).2 with
    | none => exact ⟨hnodup, hheld⟩
    | some asset =>
      obtain ⟨hbefore, hgone⟩ := hstep.handed asset hout
      refine ⟨List.nodup_cons.mpr ⟨fun hmem ↦ ?_, hnodup⟩, ?_⟩
      · rcases hlater asset.serial hmem with hafter | hnew
        · exact hgone hafter
        · have hbelow := haccount.heldBelow asset.serial hbefore
          exact absurd (hstep.serials.trans hnew) (Nat.not_le.mpr hbelow)
      · intro serial hmem
        rcases List.mem_cons.mp hmem with rfl | hmem
        · exact .inl hbefore
        · exact hheld serial hmem

/-! ### A presignature store of node 1 -/

namespace OwnStore

/-- Presignatures of domain 0, all of them usable, kept in the database as they are. -/
def storeConfig : AssetStoreConfig (Deposit ℕ) (Deposit ℕ) where
  codec := { toValue := id, fromValue := some, fromValue_toValue := fun _ ↦ rfl }
  col := .presignature
  domainId := some 0
  myParticipantId := 1
  condition := fun _ _ ↦ true

def start : StoreRun (Deposit ℕ) ℕ where
  store := { db := SecretDB.empty, ownedQueue := .new 0, lastId := none }
  nextSerial := 0

def read : ColdRead (List ParticipantId) where
  now := 0
  conditionValue := [1, 2]

/-- A take that receives the next hot element. -/
def takeOwned : StoreOp ℕ := .takeOwned read [{ read, sleepElapsed := false, receiveRead := read }]

def ownId : UniqueId := UniqueId.new 1 100 0

def peerId : UniqueId := UniqueId.new 2 100 0

theorem start_fresh : Fresh storeConfig start := ⟨rfl, 0, rfl⟩

end OwnStore

/-! ### Assets over a whole run -/

open OwnStore

/-- In every run of a store from an empty database whose takes as unowned name no queued id, the
asset stored by one add is handed out at most once. -/
theorem assets_handed_out_at_most_once {config : AssetStoreConfig Value (Deposit T)}
    {run : StoreRun Value T} (hfresh : Fresh config run) {ops : List (StoreOp T)}
    (hmeet : StepsMeet (apply config) TakesNoQueuedAsset run ops) :
    (handedOut config run ops).Nodup :=
  (hfresh.accounted.handedOut_nodup hmeet).1

/-- An owned asset is taken from the queue and a peer's from the database, before and after a
restart. -/
theorem assets_handed_out_at_most_once_witness :
    (handedOut storeConfig start [.addOwned ownId 7, .addUnowned peerId 8,
      .takeUnowned peerId, .restart 5, takeOwned, .takeUnowned ownId]).Nodup :=
  assets_handed_out_at_most_once start_fresh (by decide +kernel)

/-- A peer names this node's own presignature, and the node then takes it for its own use. -/
theorem own_asset_handed_out_twice :
    Fresh storeConfig start ∧
      ¬ (handedOut storeConfig start [.addOwned ownId 7, .takeUnowned ownId, takeOwned]).Nodup :=
  ⟨start_fresh, by decide +kernel⟩

end StoreRun

end NearMpc.Node
