import NearMpc.Node.AssetAgreement
import NearMpc.Node.ChannelDispatch

/-!
# Reservation of asset ids

A store hands out ranges of ids for new assets. It keeps the last id of the last range under a lock,
and starts the next range after it: in the current second if the clock has moved on, and otherwise
at the next counter. The first last id is the one of the last own record, in key order. Follows
`new`, `make_key`, `make_prefix_range`, `decode_key` and `generate_and_reserve_id_range` of
`assets.rs`, and `UniqueId` of `primitives.rs`.

The key encoding is big-endian, so that keys are ordered as ids (`makeKey_lt_iff`) and the record
loaded last has the largest own id (`lastId_of_new`). Each range then lies above the last id
before it, whatever the clock says.
-/

set_option autoImplicit false

namespace NearMpc.Node

open Library Library.Outcome UniqueId AssetStoreConfig DistributedAssetStorage

variable {Value T : Type}

namespace UniqueId

/-- Ids are ordered as 128 bit words. -/
instance : LT UniqueId where
  lt := fun first second ↦ first.raw < second.raw

instance : LE UniqueId where
  le := fun first second ↦ first.raw ≤ second.raw

variable {first second : UniqueId}

theorem lt_iff : first < second ↔ first.raw.toNat < second.raw.toNat :=
  BitVec.lt_def

theorem le_iff : first ≤ second ↔ first.raw.toNat ≤ second.raw.toNat :=
  BitVec.le_def

theorem toNat_raw_inj : first.raw.toNat = second.raw.toNat ↔ first = second := by
  rw [BitVec.toNat_inj]
  exact ⟨fun hraw ↦ by cases first; cases second; congr, fun hsame ↦ by rw [hsame]⟩

/-- The id of the current second. A clock before the epoch panics. -/
def generate (participantId : ParticipantId) (reading : Option UInt64) : NodeResult UniqueId := do
  let now ← unwrap reading
  return new participantId now 0

/-- Adding to the counter adds to the word; it fails if the counter would overflow. -/
theorem addToCounter_eq_ok {self next : UniqueId} {delta : UInt32} :
    self.addToCounter delta = .ok next ↔
      self.counter.toNat + delta.toNat < 2 ^ 32 ∧
        next.raw.toNat = self.raw.toNat + delta.toNat := by
  have hself := self.toNat_raw_eq
  simp only [addToCounter, checkedAdd]
  by_cases hroom : self.counter.toNat + delta.toNat < 2 ^ 32
  · have hsum : (self.counter + delta).toNat = self.counter.toNat + delta.toNat := by
      rw [UInt32.toNat_add]
      exact Nat.mod_eq_of_lt hroom
    simp only [hroom, if_true, okOr, ok_bind, pure_eq, ok.injEq, true_and]
    rw [← toNat_raw_inj, toNat_raw_new, hsum]
    omega
  · simp only [hroom, if_false, okOr, err_bind, false_and, reduceCtorEq]

end UniqueId

/-! ### Keys -/

namespace AssetStoreConfig

variable {config : AssetStoreConfig Value T}

/-- Keys are ordered as the ids. -/
theorem makeKey_lt_iff (first second : UniqueId) :
    config.makeKey first < config.makeKey second ↔ first < second := by
  have hencoded : ∀ {lower upper : UniqueId}, lower < upper → lower.toBytes < upper.toBytes := by
    intro _ upper hlt
    have hlimit : upper.raw.toNat < 256 ^ 16 := upper.raw.isLt.trans_le (by norm_num)
    have hbytes := BigEndian.toBytes_append_lt (lt_iff.mp hlt) hlimit [] []
    rwa [List.append_nil, List.append_nil] at hbytes
  rw [makeKey, makeKey, BigEndian.append_left_lt_iff]
  refine ⟨fun hbytes ↦ ?_, hencoded⟩
  rcases Nat.lt_trichotomy first.raw.toNat second.raw.toNat with hlt | hsame | hgt
  · exact lt_iff.mpr hlt
  · rw [toNat_raw_inj.mp hsame] at hbytes
    exact absurd hbytes (List.lt_irrefl _)
  · exact absurd hbytes (List.lt_asymm (hencoded (lt_iff.mpr hgt)))

section

variable {domainId : Option DomainId} (hkind : domainId.isSome = config.domainId.isSome)
include hkind

/-- A key starts with the domain of its store. The stores that share a column either all have a
domain or none has. -/
theorem domainId_of_makeKey {id rest}
    (hkey : { config with domainId }.makeKey id = config.domainPrefix ++ rest) :
    domainId = config.domainId := by
  unfold makeKey domainPrefix at hkey
  cases hdomain : config.domainId with
  | none => simpa [hdomain] using hkind
  | some own =>
    rw [hdomain, Option.isSome_some, Option.isSome_iff_exists] at hkind
    obtain ⟨other, rfl⟩ := hkind
    simp only [hdomain] at hkey
    have hbytes : domainIdToBytes other = domainIdToBytes own :=
      (List.append_inj hkey (by simp [domainIdToBytes])).1
    have hvalue := congrArg BigEndian.ofBytes hbytes
    have hother := other.toNat_lt
    have hown := own.toNat_lt
    simp only [domainIdToBytes, BigEndian.ofBytes_toBytes] at hvalue
    rw [Nat.mod_eq_of_lt (by omega), Nat.mod_eq_of_lt (by omega)] at hvalue
    rw [UInt64.toNat_inj.mp hvalue]

/-- Keys of different domains or ids are different. -/
theorem makeKey_inj {first second}
    (hkeys : { config with domainId }.makeKey first = config.makeKey second) :
    domainId = config.domainId ∧ first = second := by
  obtain rfl := domainId_of_makeKey hkind hkeys
  exact ⟨rfl, config.makeKey_injective hkeys⟩

end

/-- Among the keys of all participants and domains, the range of a participant contains those of
this participant and the domain of the store. -/
theorem makeKey_mem_range_iff {participantId start stop}
    (hrange : config.makePrefixRange participantId = .ok (start, stop)) {domainId}
    (hkind : domainId.isSome = config.domainId.isSome) (id : UniqueId) :
    (start ≤ { config with domainId }.makeKey id ∧ { config with domainId }.makeKey id < stop) ↔
      domainId = config.domainId ∧ id.participantId = participantId := by
  constructor
  · rintro ⟨hstart, hstop⟩
    have hsame : domainId = config.domainId := by
      obtain ⟨-, rfl, rfl⟩ := makePrefixRange_eq_ok hrange
      obtain ⟨_, hkey, -, -⟩ := BigEndian.exists_append_of_le_of_lt hstart hstop
      exact domainId_of_makeKey hkind hkey
    subst hsame
    exact ⟨rfl, (makeKey_mem_range hrange id).mp ⟨hstart, hstop⟩⟩
  · rintro ⟨rfl, hparticipant⟩
    exact (makeKey_mem_range hrange id).mpr hparticipant

end AssetStoreConfig

/-- A range lists its records in increasing key order. -/
theorem SecretDB.pairwise_lt_iterRange (self : SecretDB Value) (col : DBCol) (start stop : DBKey) :
    ((self.iterRange col start stop).map Prod.fst).Pairwise (· < ·) := by
  have hordered := (self.column col).ordered_keys_toList
  refine List.pairwise_map.mpr ?_
  exact (List.Pairwise.filter _ hordered).imp BigEndian.lt_of_compare

/-! ### The last loaded id -/

variable {store : DistributedAssetStorage Value T}

namespace DistributedAssetStorage

variable {config : AssetStoreConfig Value T}

/-- The last id after loading is the one of the last record. -/
theorem loadOwned_lastId {records queue after lastId afterId}
    (hok : loadOwned config queue lastId records = .ok (after, afterId)) :
    (records = [] ∧ afterId = lastId) ∨
      ∃ earlier record id, records = earlier ++ [record] ∧ config.decodeKey record.1 = .ok id ∧
        afterId = some id := by
  induction records generalizing queue lastId with
  | nil =>
    cases hok
    exact .inl ⟨rfl, rfl⟩
  | cons record _ ih =>
    simp only [loadOwned, bind_eq_ok] at hok
    obtain ⟨id, hdecode, _, -, hok⟩ := hok
    refine .inr ?_
    rcases ih hok with ⟨rfl, rfl⟩ | ⟨earlier, last, lastId, rfl, hlast, rfl⟩
    · exact ⟨[], record, id, rfl, hdecode, rfl⟩
    · exact ⟨record :: earlier, last, lastId, rfl, hlast, rfl⟩

/-- The last id of a new store is an own id, and no own record has a larger one. -/
theorem lastId_of_new {now db} (hnew : new config now db = .ok store) :
    (∀ last ∈ store.lastId, last.participantId = config.myParticipantId) ∧
      ∀ id, id.participantId = config.myParticipantId →
        (db.get config.col (config.makeKey id)).isSome = true →
          ∃ last ∈ store.lastId, id ≤ last := by
  simp only [new, bind_eq_ok, Prod.exists, pure_eq, ok.injEq] at hnew
  obtain ⟨start, stop, hrange, _, _, hload, rfl⟩ := hnew
  have hmem : ∀ id, id.participantId = config.myParticipantId →
      (db.get config.col (config.makeKey id)).isSome = true →
        config.makeKey id ∈ (db.iterRange config.col start stop).map Prod.fst := by
    intro _ hparticipant hrecorded
    have hown := (makeKey_mem_ownKeys hrange).mpr ⟨hparticipant, hrecorded⟩
    simpa only [ownKeys, hrange] using hown
  have hinRange : ∀ record ∈ db.iterRange config.col start stop,
      start ≤ record.1 ∧ record.1 < stop := by
    intro _ hrecord
    simp only [SecretDB.iterRange, List.mem_filter, decide_eq_true_eq] at hrecord
    exact hrecord.2
  have hsorted := db.pairwise_lt_iterRange config.col start stop
  rcases loadOwned_lastId hload with ⟨hnone, rfl⟩ | ⟨earlier, record, id, hrecords, hdecode, rfl⟩
  · refine ⟨by simp, fun id hparticipant hrecorded ↦ ?_⟩
    have hkey := hmem id hparticipant hrecorded
    rw [hnone] at hkey
    cases hkey
  · obtain ⟨hstart, hstop⟩ := hinRange record (by simp [hrecords])
    have hkey := makeKey_of_decodeKey hrange hstart hstop hdecode
    rw [hkey] at hstart hstop
    have hparticipant := (makeKey_mem_range hrange id).mp ⟨hstart, hstop⟩
    refine ⟨by simpa using hparticipant, fun other hother hrecorded ↦ ⟨id, rfl, ?_⟩⟩
    have hlisted := hmem other hother hrecorded
    rw [hrecords, List.map_append, List.map_singleton] at hlisted hsorted
    rcases List.mem_append.mp hlisted with hearlier | hlast
    · have hlt := (List.pairwise_append.mp hsorted).2.2 _ hearlier record.1 (by simp)
      rw [hkey, makeKey_lt_iff, lt_iff] at hlt
      exact le_iff.mpr hlt.le
    · rw [List.mem_singleton, hkey] at hlast
      rw [config.makeKey_injective hlast]
      exact le_iff.mpr le_rfl

end DistributedAssetStorage

/-! ### Ranges -/

/-- A range of ids: the id that a call returned, and the count it was called with. -/
structure IdRange where
  start : UniqueId
  count : UInt32

/-- The ids of a range, as its user counts them up from the start. -/
def IdRange.ids (range : IdRange) : List UniqueId := range.start.batch range.count.toNat

namespace IdRange

variable {range : IdRange} {id stop : UniqueId}

theorem participantId_of_mem (hmem : id ∈ range.ids) :
    id.participantId = range.start.participantId :=
  participantId_of_mem_batch hmem

theorem toNat_pred (hcount : range.count ≠ 0) :
    (range.count - 1).toNat = range.count.toNat - 1 := by
  have hpositive : 0 < range.count.toNat :=
    Nat.pos_of_ne_zero fun hzero ↦ hcount (UInt32.toNat_inj.mp hzero)
  exact UInt32.toNat_sub_of_le _ _ (UInt32.le_iff_toNat_le.mpr hpositive)

section

variable (hcount : range.count ≠ 0) (hstop : range.start.addToCounter (range.count - 1) = .ok stop)
include hcount hstop

/-- A range whose last id exists has all its ids, one after another. -/
theorem ids_eq :
    range.ids.map (fun id ↦ id.raw.toNat) =
      List.range' range.start.raw.toNat range.count.toNat := by
  have hlimit := range.count.toNat_lt
  obtain ⟨hroom, hlast⟩ := addToCounter_eq_ok.mp hstop
  rw [toNat_pred hcount] at hroom hlast
  have hstopLt := stop.raw.isLt
  have hids : range.ids = (List.range range.count.toNat).map
      fun offset ↦ ⟨BitVec.ofNat 128 (range.start.raw.toNat + offset)⟩ := by
    rw [ids, batch, ← List.filterMap_eq_map]
    refine List.filterMap_congr fun offset hoffset ↦ ?_
    rw [List.mem_range] at hoffset
    have htoNat : (UInt32.ofNat offset).toNat = offset :=
      UInt32.toNat_ofNat_of_lt (by simpa using (by omega : offset < 2 ^ 32))
    have hok : range.start.addToCounter (UInt32.ofNat offset) =
        .ok ⟨BitVec.ofNat 128 (range.start.raw.toNat + offset)⟩ := by
      rw [addToCounter_eq_ok, htoNat, BitVec.toNat_ofNat]
      exact ⟨by omega, Nat.mod_eq_of_lt (by omega)⟩
    simp only [hok, Function.comp_apply]
  rw [hids, List.map_map, List.range'_eq_map_range]
  refine List.map_congr_left fun offset hoffset ↦ ?_
  rw [List.mem_range] at hoffset
  rw [Function.comp_apply, BitVec.toNat_ofNat, Nat.mod_eq_of_lt (by omega)]

theorem length_ids : range.ids.length = range.count.toNat := by
  have hlength := congrArg List.length (ids_eq hcount hstop)
  rwa [List.length_map, List.length_range'] at hlength

theorem pairwise_lt_ids : range.ids.Pairwise (· < ·) := by
  have hsorted : (range.ids.map fun id ↦ id.raw.toNat).Pairwise (· < ·) := by
    rw [ids_eq hcount hstop]
    exact List.pairwise_lt_range'
  exact (List.pairwise_map.mp hsorted).imp lt_iff.mpr

/-- The ids of a range lie between its start and its last id. -/
theorem le_of_mem (hmem : id ∈ range.ids) : range.start ≤ id ∧ id ≤ stop := by
  have hraw : id.raw.toNat ∈ List.range' range.start.raw.toNat range.count.toNat := by
    rw [← ids_eq hcount hstop]
    exact List.mem_map_of_mem hmem
  have hlast := (addToCounter_eq_ok.mp hstop).2
  rw [toNat_pred hcount] at hlast
  rw [List.mem_range'_1] at hraw
  rw [le_iff, le_iff]
  omega

end

end IdRange

/-! ### Reservations -/

/-- The lock around the last id. -/
structure LastIdLock where
  lastId : Option UniqueId
  poisoned : Bool

variable (config : AssetStoreConfig Value T) (reading : Option UInt64)

/-- The first id of the next range. -/
def nextIdStart :
    Option UniqueId → NodeResult UniqueId
  | some lastId => unwrap reading >>= lastId.pickNewAfter
  | none => generate config.myParticipantId reading

/-- The first and the last id of the next range. -/
def nextIdRange (lastId : Option UniqueId) (reading : Option UInt64) (count : UInt32) :
    NodeResult (UniqueId × UniqueId) := do
  let start ← nextIdStart config reading lastId
  let stop ← start.addToCounter (count - 1)
  return (start, stop)

/-- Reserves a range and returns its start. The count is asserted before the lock is taken; whatever
fails after that is unwrapped while the lock is held. -/
def generateAndReserveIdRange (count : UInt32) : Effect LastIdLock NodeError UniqueId := fun lock ↦
  if count = 0 ∨ lock.poisoned = true then (lock, .panicked)
  else match nextIdRange config lock.lastId reading count with
    | .ok (start, stop) => ({ lock with lastId := some stop }, .ok start)
    | _ => ({ lock with poisoned := true }, .panicked)

variable {config : AssetStoreConfig Value T} {lock : LastIdLock} {reading : Option UInt64}
  {count : UInt32}

/-- A call that does not return a range panics and leaves the last id alone. -/
theorem generateAndReserveIdRange_fails
    (hfails : (generateAndReserveIdRange config reading count lock).2.isOk = false) :
    (generateAndReserveIdRange config reading count lock).2 = .panicked ∧
      (generateAndReserveIdRange config reading count lock).1.lastId = lock.lastId := by
  unfold generateAndReserveIdRange at hfails ⊢
  split_ifs with hrefused
  · exact ⟨rfl, rfl⟩
  · rw [if_neg hrefused] at hfails
    split at hfails
    · cases hfails
    · exact ⟨rfl, rfl⟩

/-- A range starts above the last id, or in the current second for this node. -/
theorem nextIdRange_spec {lastId start stop}
    (hown : ∀ last ∈ lastId, last.participantId = config.myParticipantId)
    (hok : nextIdRange config lastId reading count = .ok (start, stop)) :
    start.participantId = config.myParticipantId ∧ (∀ last ∈ lastId, last < start) ∧
      start.addToCounter (count - 1) = .ok stop := by
  simp only [nextIdRange, bind_eq_ok, pure_eq, ok.injEq, Prod.mk.injEq] at hok
  obtain ⟨_, hfirst, _, hlast, rfl, rfl⟩ := hok
  cases lastId with
  | none =>
    simp only [nextIdStart, generate, bind_eq_ok, pure_eq, ok.injEq] at hfirst
    obtain ⟨_, -, rfl⟩ := hfirst
    exact ⟨participantId_new _ _ _, by simp, hlast⟩
  | some before =>
    obtain ⟨_, -, hpick⟩ := bind_eq_ok.mp hfirst
    obtain ⟨hsame, hlarger⟩ := pickNewAfter_spec hpick
    refine ⟨hsame.trans (hown before rfl), fun other hother ↦ ?_, hlast⟩
    cases hother
    exact lt_iff.mpr hlarger

/-! ### Sequences of calls -/

/-- The count of a call, and what the clock shows during it. -/
structure ReservationCall where
  reading : Option UInt64
  count : UInt32

/-- The lock of a store and the ranges that it has handed out, oldest first. -/
structure IdReservations where
  lock : LastIdLock
  ranges : List IdRange

namespace IdReservations

def start (store : DistributedAssetStorage Value T) : IdReservations :=
  ⟨⟨store.lastId, false⟩, []⟩

def step (config : AssetStoreConfig Value T) (history : IdReservations) (call : ReservationCall) :
    IdReservations :=
  match generateAndReserveIdRange config call.reading call.count history.lock with
  | (lock, .ok start) => ⟨lock, history.ranges ++ [⟨start, call.count⟩]⟩
  | (lock, _) => ⟨lock, history.ranges⟩

/-- The ids that have been handed out. -/
def reserved (history : IdReservations) : List UniqueId := history.ranges.flatMap IdRange.ids

/-- What a reservation does: it hands out the ids from its start to the new last id, or nothing. -/
theorem step_cases (config : AssetStoreConfig Value T) (history : IdReservations)
    (call : ReservationCall) :
    ((history.step config call).lock.lastId = history.lock.lastId ∧
      (history.step config call).ranges = history.ranges) ∨
    ∃ start stop, call.count ≠ 0 ∧
      nextIdRange config history.lock.lastId call.reading call.count = .ok (start, stop) ∧
      (history.step config call).lock.lastId = some stop ∧
      (history.step config call).ranges = history.ranges ++ [⟨start, call.count⟩] := by
  unfold step generateAndReserveIdRange
  split_ifs with hrefused
  · exact .inl ⟨rfl, rfl⟩
  · rw [not_or] at hrefused
    cases hnext : nextIdRange config history.lock.lastId call.reading call.count with
    | ok range => exact .inr ⟨range.1, range.2, hrefused.1, rfl, rfl, rfl⟩
    | err | panicked => exact .inl ⟨rfl, rfl⟩

/-- The ids that were handed out are distinct, each range is complete, and all ids are new ids of
this node. -/
structure NoCollision (config : AssetStoreConfig Value T) (db : SecretDB Value)
    (history : IdReservations) : Prop where
  increasing : history.reserved.Pairwise (· < ·)
  complete : ∀ range ∈ history.ranges, range.ids.length = range.count.toNat
  own : ∀ id ∈ history.reserved, id.participantId = config.myParticipantId
  above : ∀ id ∈ history.reserved, ∀ loaded : UniqueId,
    loaded.participantId = config.myParticipantId →
      (db.get config.col (config.makeKey loaded)).isSome = true → loaded < id

/-- The last id is at least every id that was handed out or loaded. -/
structure Bounded (config : AssetStoreConfig Value T) (db : SecretDB Value)
    (history : IdReservations) : Prop extends NoCollision config db history where
  lastOwn : ∀ last ∈ history.lock.lastId, last.participantId = config.myParticipantId
  reservedLe : ∀ id ∈ history.reserved, ∃ last ∈ history.lock.lastId, id ≤ last
  loadedLe : ∀ loaded : UniqueId, loaded.participantId = config.myParticipantId →
    (db.get config.col (config.makeKey loaded)).isSome = true →
      ∃ last ∈ history.lock.lastId, loaded ≤ last

variable {db : SecretDB Value} {history : IdReservations}

theorem Bounded.start {now} (hnew : new config now db = .ok store) :
    (IdReservations.start store).Bounded config db := by
  obtain ⟨hown, hloaded⟩ := lastId_of_new hnew
  have hnothing : (IdReservations.start store).reserved = [] := rfl
  constructor
  case toNoCollision =>
    exact ⟨by rw [hnothing]; exact List.Pairwise.nil, by simp [IdReservations.start],
      by simp [hnothing], by simp [hnothing]⟩
  case lastOwn => exact hown
  case reservedLe => simp [hnothing]
  case loadedLe => exact hloaded

theorem Bounded.step (hbounded : history.Bounded config db) (call : ReservationCall) :
    (history.step config call).Bounded config db := by
  rcases step_cases config history call with ⟨hlast, hranges⟩ |
      ⟨start, stop, hcount, hnext, hlast, hranges⟩
  · have hsame : (history.step config call).reserved = history.reserved := by
      rw [reserved, hranges, reserved]
    constructor
    case toNoCollision =>
      constructor <;> simp only [hsame, hranges]
      exacts [hbounded.increasing, hbounded.complete, hbounded.own, hbounded.above]
    all_goals simp only [hsame, hlast]
    exacts [hbounded.lastOwn, hbounded.reservedLe, hbounded.loadedLe]
  · obtain ⟨hparticipant, hlarger, hstop⟩ := nextIdRange_spec hbounded.lastOwn hnext
    have hids : ∀ id ∈ (IdRange.mk start call.count).ids, start ≤ id ∧ id ≤ stop :=
      fun id ↦ @IdRange.le_of_mem ⟨start, call.count⟩ id stop hcount hstop
    have hreserved : (history.step config call).reserved =
        history.reserved ++ (IdRange.mk start call.count).ids := by
      rw [reserved, hranges, List.flatMap_append, List.flatMap_singleton, reserved]
    -- what is at most the last id lies below the new range, and so below the new last id
    have hbelow : ∀ id, (∃ last ∈ history.lock.lastId, id ≤ last) → id < start := by
      rintro _ ⟨last, hmem, hle⟩
      have hlt := lt_iff.mp (hlarger last hmem)
      exact lt_iff.mpr ((le_iff.mp hle).trans_lt hlt)
    have hlastLe : ∀ id, id < start → ∃ last ∈ (history.step config call).lock.lastId,
        id ≤ last := by
      intro id hlt
      have hstart := (addToCounter_eq_ok.mp hstop).2
      have hle : id.raw.toNat ≤ stop.raw.toNat := by
        rw [hstart]
        exact (lt_iff.mp hlt).le.trans (Nat.le_add_right _ _)
      exact ⟨stop, hlast, le_iff.mpr hle⟩
    have hlt_of_mem : ∀ {lower id : UniqueId}, lower < start →
        id ∈ (IdRange.mk start call.count).ids → lower < id := by
      intro _ id hlower hmem
      have hle := (hids id hmem).1
      rw [lt_iff] at hlower ⊢
      exact hlower.trans_le (le_iff.mp hle)
    constructor
    case toNoCollision =>
      constructor
      case increasing =>
        rw [hreserved, List.pairwise_append]
        exact ⟨hbounded.increasing, IdRange.pairwise_lt_ids hcount hstop,
          fun earlier hearlier later hlater ↦
            hlt_of_mem (hbelow earlier (hbounded.reservedLe earlier hearlier)) hlater⟩
      case complete =>
        rw [hranges]
        rw [List.forall_mem_append, List.forall_mem_singleton]
        exact ⟨hbounded.complete, IdRange.length_ids hcount hstop⟩
      case own =>
        rw [hreserved, List.forall_mem_append]
        exact ⟨hbounded.own, fun id hmem ↦
          (IdRange.participantId_of_mem hmem).trans hparticipant⟩
      case above =>
        rw [hreserved, List.forall_mem_append]
        exact ⟨hbounded.above, fun id hmem loaded hown hrecorded ↦
          hlt_of_mem (hbelow loaded (hbounded.loadedLe loaded hown hrecorded)) hmem⟩
    case lastOwn =>
      rw [hlast]
      rintro _ hmem
      cases hmem
      exact (participantId_addToCounter hstop).trans hparticipant
    case reservedLe =>
      rw [hreserved, List.forall_mem_append]
      exact ⟨fun id hmem ↦ hlastLe id (hbelow id (hbounded.reservedLe id hmem)),
        fun id hmem ↦ ⟨stop, hlast, (hids id hmem).2⟩⟩
    case loadedLe =>
      exact fun loaded hown hrecorded ↦
        hlastLe loaded (hbelow loaded (hbounded.loadedLe loaded hown hrecorded))

end IdReservations

/-- In every sequence of reservations over a loaded store, with any counts and clock readings, the
ids that are handed out increase strictly, and lie above every loaded own id; a call that hands out
nothing panics. Keys of different domains or ids are different, ordered as the ids, and decoded to
the id they were made from. The range of a participant contains exactly its keys. -/
theorem assetIds_never_collide (config : AssetStoreConfig Value T) :
    (∀ now db store, new config now db = .ok store → ∀ calls,
      (run (IdReservations.step config) (.start store) calls).NoCollision config db) ∧
    (∀ reading count lock, (generateAndReserveIdRange config reading count lock).2.isOk = false →
      (generateAndReserveIdRange config reading count lock).2 = .panicked ∧
        (generateAndReserveIdRange config reading count lock).1.lastId = lock.lastId) ∧
    (∀ domainId, domainId.isSome = config.domainId.isSome → ∀ first second,
      { config with domainId }.makeKey first = config.makeKey second →
        domainId = config.domainId ∧ first = second) ∧
    (∀ first second, config.makeKey first < config.makeKey second ↔ first < second) ∧
    (∀ id, config.decodeKey (config.makeKey id) = .ok id) ∧
    ∀ participantId start stop, config.makePrefixRange participantId = .ok (start, stop) →
      (∀ domainId, domainId.isSome = config.domainId.isSome → ∀ id,
        (start ≤ { config with domainId }.makeKey id ∧
          { config with domainId }.makeKey id < stop) ↔
            domainId = config.domainId ∧ id.participantId = participantId) ∧
      ∀ key id, start ≤ key → key < stop → config.decodeKey key = .ok id →
        key = config.makeKey id ∧ id.participantId = participantId := by
  refine ⟨fun now db store hnew calls ↦ ?_, fun _ _ _ ↦ generateAndReserveIdRange_fails,
    fun _ hkind _ _ ↦ makeKey_inj hkind, makeKey_lt_iff,
    config.decodeKey_makeKey, fun participantId start stop hrange ↦
      ⟨fun _ hkind ↦ makeKey_mem_range_iff hrange hkind, ?_⟩⟩
  · have hbounded := run_invariant (IdReservations.Bounded.start hnew)
      (fun history call hbefore ↦ IdReservations.Bounded.step hbefore call) calls
    exact hbounded.toNoCollision
  · intro key id hstart hstop hdecode
    obtain rfl := makeKey_of_decodeKey hrange hstart hstop hdecode
    exact ⟨rfl, (makeKey_mem_range hrange id).mp ⟨hstart, hstop⟩⟩

namespace IdReservations

/-- The presignatures of domain 0 on node 1, kept in the database as they are. -/
def storeConfig : AssetStoreConfig ℕ ℕ where
  codec := { toValue := fun value ↦ value, fromValue := some, fromValue_toValue := fun _ ↦ rfl }
  col := .presignature
  domainId := some 0
  myParticipantId := 1
  condition := fun _ _ ↦ true

/-- One own presignature, and one of node 2. -/
def db : SecretDB ℕ :=
  (SecretDB.empty.put .presignature (storeConfig.makeKey (.new 1 100 5)) 7).put .presignature
    (storeConfig.makeKey (.new 2 300 0)) 8

/-- The clock is behind the loaded id, moves on, and is set back. -/
def calls : List ReservationCall := [⟨some 90, 3⟩, ⟨some 200, 2⟩, ⟨some 150, 1⟩]

/-- The reservations of a store over `db`. -/
def reservations (store : DistributedAssetStorage ℕ ℕ) : IdReservations :=
  run (step storeConfig) (.start store) calls

end IdReservations

open IdReservations in
/-- A clock that moves backwards: the ids continue in the second of the last id. -/
theorem assetIds_never_collide_clockSetBack :
    (∃ store, new storeConfig 0 db = .ok store ∧
      (reservations store).NoCollision storeConfig db ∧ (reservations store).reserved =
        [.new 1 100 6, .new 1 100 7, .new 1 100 8, .new 1 200 0, .new 1 200 1, .new 1 200 2]) ∧
      (generateAndReserveIdRange storeConfig none 1 ⟨none, false⟩).2 = .panicked ∧
      ∃ start stop, storeConfig.makePrefixRange 1 = .ok (start, stop) ∧
        start ≤ storeConfig.makeKey (.new 1 100 5) := by
  obtain ⟨hids, hfails, -, -, -, hranges⟩ := assetIds_never_collide storeConfig
  refine ⟨?_, (hfails none 1 ⟨none, false⟩ rfl).1, ?_⟩
  · have hload : (new storeConfig 0 db >>= fun store ↦
        .ok store.lastId) = .ok (some (.new 1 100 5)) := by decide +kernel
    obtain ⟨store, hnew, hlast⟩ := bind_eq_ok.mp hload
    refine ⟨store, hnew, hids 0 db store hnew calls, ?_⟩
    rw [reservations, IdReservations.start, ok.inj hlast]
    decide +kernel
  · have hrange : storeConfig.makePrefixRange 1 =
        .ok ([0, 0, 0, 0, 0, 0, 0, 0, 0, 0, 0, 1], [0, 0, 0, 0, 0, 0, 0, 0, 0, 0, 0, 2]) := by
      decide +kernel
    have hown := ((hranges 1 _ _ hrange).1 (some 0) rfl (.new 1 100 5)).mpr
      ⟨rfl, participantId_new _ _ _⟩
    exact ⟨_, _, hrange, hown.1⟩

end NearMpc.Node
