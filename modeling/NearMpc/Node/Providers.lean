import NearMpc.Node.AssetStorage
import NearMpc.Node.Network
import NearMpc.Threshold.Constructors

/-!
# The follower's side of a task

What a node does when a peer starts a task: the five providers of `providers/`, from the start of
the task to the construction of its protocol, and what they write once the protocol has returned.
Follows `mpc_client.rs`, `network/computation.rs` and the follower functions of the providers.

A follower acts on the database of its node: it takes the assets that the task consumes and records
those that it produces. `setUp` is the part before the protocol runs, `complete` the part after.
-/

set_option autoImplicit false

namespace NearMpc.Node

open Library Library.Outcome NearMpc.Threshold

/-! ### Assets -/

abbrev PairedTriple (F G : Type) :=
  OtBasedEcdsa.TripleGenerationOutput F G ×
    OtBasedEcdsa.TripleGenerationOutput F G

/-- A presignature with the participants it was generated with. -/
structure PresignOutputWithParticipants (Presignature : Type) where
  presignature : Presignature
  participants : List ParticipantId
deriving DecidableEq, Repr

/-- The participants that have a share of both triples. -/
def participantsFromTriples {F G : Type} (pair : PairedTriple F G) :
    List ParticipantId :=
  pair.1.2.participants.filter (pair.2.2.participants.contains ·)

/-- A record of the database. -/
inductive StoredValue (F G : Type) where
  | pairedTriple (pair : PairedTriple F G)
  | presignature (record : PresignOutputWithParticipants (OtBasedEcdsa.PresignOutput F G))
  | robustPresignature
      (record : PresignOutputWithParticipants (RobustEcdsa.PresignOutput F G))
  | other (bytes : List UInt8)
deriving DecidableEq

variable {F G EddsaKeys CkdKeys ElementG1 : Type}

def pairedTripleCodec : Codec (StoredValue F G) (PairedTriple F G) where
  toValue := .pairedTriple
  fromValue
    | .pairedTriple pair => some pair
    | _ => none
  fromValue_toValue := fun _ ↦ rfl

def presignatureCodec : Codec (StoredValue F G)
    (PresignOutputWithParticipants (OtBasedEcdsa.PresignOutput F G)) where
  toValue := .presignature
  fromValue
    | .presignature record => some record
    | _ => none
  fromValue_toValue := fun _ ↦ rfl

def robustPresignatureCodec : Codec (StoredValue F G)
    (PresignOutputWithParticipants (RobustEcdsa.PresignOutput F G)) where
  toValue := .robustPresignature
  fromValue
    | .robustPresignature record => some record
    | _ => none
  fromValue_toValue := fun _ ↦ rfl

/-- What decodes as a robust presignature is one. -/
theorem eq_of_fromValue_robustPresignature {value : StoredValue F G}
    {record : PresignOutputWithParticipants (RobustEcdsa.PresignOutput F G)}
    (hdecoded : robustPresignatureCodec.fromValue value = some record) :
    value = .robustPresignature record := by
  cases value with
  | robustPresignature =>
    rw [Option.some.inj hdecoded]
  | pairedTriple | presignature | other => cases hdecoded

/-! ### Requests -/

inductive Payload where
  | ecdsa (hash : List UInt8)
  | eddsa (message : List UInt8)
deriving DecidableEq, Repr

def Payload.asEcdsa : Payload → Option (List UInt8)
  | ecdsa hash => some hash
  | eddsa _ => none

def Payload.asEddsa : Payload → Option (List UInt8)
  | ecdsa _ => none
  | eddsa message => some message

structure SignatureRequest where
  payload : Payload
  tweak : List UInt8
  entropy : List UInt8
  domain : DomainId
deriving DecidableEq, Repr

structure CkdRequest where
  appPublicKey : List UInt8
  appId : List UInt8
  domainId : DomainId

structure VerifyForeignTxRequest where
  entropy : List UInt8
  domainId : DomainId

/-- What a follower finds around it. -/
structure Surroundings where
  transport : Transport
  /-- `none`: the request is not seen before the timeout. -/
  signRequest : SignatureId → Option SignatureRequest
  ckdRequest : SignatureId → Option CkdRequest
  verifyForeignTxRequest : SignatureId → Option VerifyForeignTxRequest
  /-- The hash of the payload to sign, given this node's place among the participants. -/
  executeForeignChainRequest : SignatureId → ℕ → Except NodeError (List UInt8)
  /-- The error of waiting for the connection to a participant, if it fails. -/
  waitForConnection : ParticipantId → ConnectionVersion → Option NodeError

/-! ### The node -/

/-- The providers of a node. -/
structure MpcClient (F G EddsaKeys CkdKeys ElementG1 : Type) where
  myParticipantId : ParticipantId
  threshold : ℕ
  numberOfParticipants : ℕ
  curve : Curve F G
  ecdsaKeyshares : DomainId → Option (KeygenOutput F G)
  robustEcdsaKeyshares : DomainId → Option (KeygenOutput F G)
  eddsaKeyshares : DomainId → Option EddsaKeys
  ckdKeyshares : DomainId → Option CkdKeys
  /-- The EdDSA keys that belong to a tweak. -/
  deriveEddsaKeys : List UInt8 → EddsaKeys → EddsaKeys
  decodeElementG1 : List UInt8 → Option ElementG1

namespace MpcClient

variable (client : MpcClient F G EddsaKeys CkdKeys ElementG1)

def tripleStore : AssetStoreConfig (StoredValue F G) (PairedTriple F G) where
  codec := pairedTripleCodec
  col := .triple
  domainId := none
  myParticipantId := client.myParticipantId
  condition := fun active pair ↦ (participantsFromTriples pair).all (active.contains ·)

def presignatureStore (domainId : DomainId) : AssetStoreConfig (StoredValue F G)
    (PresignOutputWithParticipants (OtBasedEcdsa.PresignOutput F G)) where
  codec := presignatureCodec
  col := .presignature
  domainId := some domainId
  myParticipantId := client.myParticipantId
  condition := fun active record ↦ record.participants.all (active.contains ·)

def robustPresignatureStore (domainId : DomainId) : AssetStoreConfig (StoredValue F G)
    (PresignOutputWithParticipants (RobustEcdsa.PresignOutput F G)) where
  codec := robustPresignatureCodec
  col := .presignature
  domainId := some domainId
  myParticipantId := client.myParticipantId
  condition := fun active record ↦ record.participants.all (active.contains ·)

end MpcClient

/-- The key share of a domain, with the error of the providers when there is none. -/
def keyshareOf {Keys : Type} (keyshares : DomainId → Option Keys) (domainId : DomainId) :
    NodeResult Keys :=
  okOr (keyshares domainId) ("No keyshare for domain DomainId(" ++ toString domainId ++ ")")

/-! ### Parameters of the robust scheme -/

variable (threshold numberOfParticipants : ℕ)

/-- The number of signers that a threshold asks for. -/
def getNumberOfSigners : NodeResult ℕ := do
  require (threshold ≤ numberOfParticipants)
    ("threshold (" ++ toString threshold ++ ") exceeds number of participants (" ++
      toString numberOfParticipants ++ ")")
  return threshold

/-- The bound on malicious signers that belongs to a threshold. -/
def translateThreshold : NodeResult MaxMalicious := do
  let numberOfSigners ← getNumberOfSigners threshold numberOfParticipants
  require (5 ≤ numberOfSigners)
    ("Robust ECDSA requires the threshold to be at least 2, which implies that the number of " ++
      "signers needs to be at least 5")
  return { value := (numberOfSigners - 1) / 2 }

end NearMpc.Node
