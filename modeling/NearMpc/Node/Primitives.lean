import NearMpc.Library.BigEndian
import NearMpc.Library.Outcome

/-!
# Identifiers of the node

Participant ids and the unique ids of assets and channels. Follows `primitives.rs`. A unique id is
a 128 bit word that packs the participant that picked it, the second it was picked in, and a
counter; its serialised form is big-endian.

`participantId_new`, `timestamp_new` and `counter_new` say that packing loses nothing, and
`tryFromSlice_toBytes` that the serialised form does not either.
-/

set_option autoImplicit false

namespace NearMpc.Node

open Library Library.Outcome

abbrev ParticipantId := UInt32

abbrev DomainId := UInt64

/-- The text of an `anyhow::Error`. -/
abbrev NodeError := String

abbrev NodeResult := Outcome NodeError

/-- `u32::checked_add` -/
def checkedAdd (left right : UInt32) : Option UInt32 :=
  if left.toNat + right.toNat < 2 ^ 32 then some (left + right) else none

/-- The big-endian bytes of a participant id. -/
def participantIdToBytes (participantId : ParticipantId) : List UInt8 :=
  BigEndian.toBytes 4 participantId.toNat

/-- The big-endian bytes of a domain id. -/
def domainIdToBytes (domainId : DomainId) : List UInt8 := BigEndian.toBytes 8 domainId.toNat

structure UniqueId where
  raw : BitVec 128
deriving DecidableEq, Repr

namespace UniqueId

def new (participantId : ParticipantId) (timestamp : UInt64) (counter : UInt32) : UniqueId where
  raw := (participantId.toBitVec.setWidth 128 <<< 96) |||
    (timestamp.toBitVec.setWidth 128 <<< 32) ||| counter.toBitVec.setWidth 128

variable (self : UniqueId)

def participantId : ParticipantId :=
  UInt32.ofBitVec ((self.raw >>> 96).setWidth 32)

def timestamp : UInt64 :=
  UInt64.ofBitVec (((self.raw >>> 32) &&& ((1#128 <<< 64) - 1#128)).setWidth 64)

def counter : UInt32 :=
  UInt32.ofBitVec ((self.raw &&& ((1#128 <<< 32) - 1#128)).setWidth 32)

/-- The id `delta` places further on in the same second. -/
def addToCounter (delta : UInt32) : NodeResult UniqueId := do
  let newCounter ← okOr (checkedAdd self.counter delta) "Counter overflow"
  return new self.participantId self.timestamp newCounter

/-- The ids of `count` assets in a row. Ids whose counter would overflow are left out. -/
def batch (count : ℕ) : List UniqueId :=
  (List.range count).filterMap fun index ↦
    match self.addToCounter (UInt32.ofNat index) with
    | .ok id => some id
    | _ => none

/-- The serialised form: 16 bytes, big-endian. -/
def toBytes : List UInt8 := BigEndian.toBytes 16 self.raw.toNat

/-- Reads an id from exactly 16 bytes. -/
def tryFromSlice (bytes : List UInt8) : NodeResult UniqueId := do
  require (16 ≤ bytes.length) "Unexpected length of input"
  require (bytes.length ≤ 16) "Not all bytes read"
  return { raw := BitVec.ofNat 128 (BigEndian.ofBytes bytes) }

/-- The text printed for an id. -/
def debug : String :=
  "UniqueId(" ++ toString self.participantId ++ ", " ++ toString self.timestamp ++ ", " ++
    toString self.counter ++ ")"

/-- The key prefix of the ids of a participant. -/
def prefixForParticipantId (participantId : ParticipantId) : List UInt8 :=
  participantIdToBytes participantId

variable (participantId : ParticipantId) (timestamp : UInt64) (counter : UInt32)

theorem participantId_new :
    (new participantId timestamp counter).participantId = participantId := by
  rw [← UInt32.toBitVec_inj]
  ext i hi
  have htimestamp : timestamp.toBitVec.getLsbD (96 + i - 32) = false :=
    BitVec.getLsbD_of_ge _ _ (by omega)
  have hcounter : counter.toBitVec.getLsbD (96 + i) = false := BitVec.getLsbD_of_ge _ _ (by omega)
  have hwidth : 96 + i < 128 := by omega
  have hindex : i < 128 := by omega
  simp [UniqueId.participantId, new, htimestamp, hcounter, hwidth, hindex,
    BitVec.getLsbD_eq_getElem hi]

theorem timestamp_new : (new participantId timestamp counter).timestamp = timestamp := by
  rw [← UInt64.toBitVec_inj]
  ext i hi
  have hones : (18446744073709551615#64)[i] = true := BitVec.getElem_allOnes i hi
  have hbelow : 32 + i < 96 := by omega
  have hwidth : 32 + i < 128 := by omega
  have hindex : i < 128 := by omega
  simp [UniqueId.timestamp, new, hones, hbelow, hwidth, hindex, BitVec.getLsbD_eq_getElem hi]

theorem counter_new : (new participantId timestamp counter).counter = counter := by
  rw [← UInt32.toBitVec_inj]
  ext i hi
  have hones : (4294967295#32)[i] = true := BitVec.getElem_allOnes i hi
  simp [UniqueId.counter, new, hones]

/-- Advancing the counter keeps the participant. -/
theorem participantId_addToCounter {self next : UniqueId} {delta : UInt32}
    (hok : self.addToCounter delta = .ok next) : next.participantId = self.participantId := by
  simp only [addToCounter, bind_eq_ok, pure_eq, ok.injEq] at hok
  obtain ⟨_, -, rfl⟩ := hok
  exact participantId_new _ _ _

theorem mem_batch {start id : UniqueId} {count : ℕ} :
    id ∈ start.batch count ↔ ∃ index < count, start.addToCounter (UInt32.ofNat index) = .ok id := by
  simp only [batch, List.mem_filterMap, List.mem_range]
  refine exists_congr fun index ↦ and_congr_right fun _ ↦ ?_
  cases start.addToCounter (UInt32.ofNat index) <;> simp

theorem participantId_of_mem_batch {start id : UniqueId} {count : ℕ}
    (hid : id ∈ start.batch count) : id.participantId = start.participantId := by
  obtain ⟨_, -, hadd⟩ := mem_batch.mp hid
  exact participantId_addToCounter hadd

@[simp] theorem tryFromSlice_toBytes : tryFromSlice self.toBytes = .ok self := by
  have hlength : self.toBytes.length = 16 := BigEndian.length_toBytes 16 _
  have hvalue : BigEndian.ofBytes self.toBytes = self.raw.toNat := by
    rw [toBytes, BigEndian.ofBytes_toBytes]
    exact Nat.mod_eq_of_lt (self.raw.isLt.trans_le (by norm_num))
  simp [tryFromSlice, require, hlength, hvalue]

end UniqueId

end NearMpc.Node
