import NearMpc.Contract.Calls

/-!
# Requests of users and the responses of nodes

Users submit requests for a signature, for a confidential key and for the verification of a foreign
transaction. Each submission yields: the host suspends it under a new data id, which the contract
stores under the request. A node that responds resumes the yield; when no response comes in time,
the host calls back and the request is forgotten. Follows the user and node methods of `lib.rs`, the
types of `primitives/signature.rs` and `primitives/ckd.rs`, and `crypto_shared/kdf.rs`.

A request that equals one still pending takes its place: the contract keeps one data id for a
request.
-/

set_option autoImplicit false

namespace NearMpc.Contract

open Library Library.Outcome

/-! ### Payloads and requests -/

/-- Bytes whose number lies between two bounds. -/
structure Bytes (minLen maxLen : ℕ) where
  bytes : List UInt8
  bounds : minLen ≤ bytes.length ∧ bytes.length ≤ maxLen
deriving DecidableEq

/-- A `[u8; 32]`. -/
abbrev Bytes32 := Bytes 32 32

inductive Payload where
  | ecdsa (hash : Bytes32)
  | eddsa (message : Bytes 32 1232)
deriving DecidableEq

def Payload.asEcdsa : Payload → Option Bytes32
  | .ecdsa hash => some hash
  | .eddsa _ => none

def Payload.asEddsa : Payload → Option (List UInt8)
  | .ecdsa _ => none
  | .eddsa message => some message.bytes

abbrev Tweak := Bytes32

structure SignRequestArgs where
  path : String
  payloadV2 : Option Payload
  deprecatedPayload : Option Bytes32
  domainId : Option DomainId
  deprecatedKeyVersion : Option ℕ

structure SignRequest where
  payload : Payload
  path : String
  domainId : DomainId

/-- Exactly one form of the payload and exactly one form of the domain must be given. -/
def SignRequest.tryFrom (args : SignRequestArgs) : Option SignRequest := do
  let payload ← match args.payloadV2, args.deprecatedPayload with
    | some payload, none => some payload
    | none, some payload => some (.ecdsa payload)
    | _, _ => none
  let domainId ← match args.domainId, args.deprecatedKeyVersion with
    | some domainId, none => some domainId
    | none, some keyVersion => some keyVersion
    | _, _ => none
  return { payload, path := args.path, domainId }

structure SignatureRequest where
  tweak : Tweak
  payload : Payload
  domainId : DomainId
deriving DecidableEq

structure CKDRequestArgs where
  derivationPath : String
  appPublicKey : PublicKey
  domainId : DomainId

structure CKDRequest where
  appPublicKey : PublicKey
  appId : Bytes32
  domainId : DomainId
deriving DecidableEq

inductive ForeignChain where
  | solana
  | bitcoin
  | ethereum
  | base
  | bnb
  | arbitrum
  | abstract
  | starknet
deriving DecidableEq

/-- A request for a foreign chain: the chain, and the rest in serialized form. -/
structure ForeignChainRpcRequest where
  chain : ForeignChain
  serialized : List UInt8
deriving DecidableEq

/-- The arguments of the submission and the stored request have the same fields. There is one
payload version. -/
structure VerifyForeignTransactionRequest where
  request : ForeignChainRpcRequest
  domainId : DomainId
deriving DecidableEq

/-! ### Responses -/

structure K256Signature where
  bigR : Bytes 33 33
  s : Bytes32
  recoveryId : UInt8
deriving DecidableEq

inductive SignatureResponse where
  | secp256k1 (signature : K256Signature)
  | ed25519 (signature : Bytes 64 64)
deriving DecidableEq

structure CKDResponse where
  bigY : PublicKey
  bigC : PublicKey
deriving DecidableEq

structure VerifyForeignTransactionResponse where
  payloadHash : Bytes32
  signature : SignatureResponse
deriving DecidableEq

/-- The x coordinate of `big_r` followed by `s`. -/
def K256Signature.toEcrecoverBytes (self : K256Signature) : List UInt8 :=
  self.bigR.bytes.tail ++ self.s.bytes

/-! ### Key derivation and verification -/

/-- What the contract uses of its host and of the libraries of the two curves. -/
structure SignatureHost (G EdwardsPoint : Type) where
  sha3 : String → Bytes32
  /-- `k256::Scalar::from_repr`. -/
  scalarFromRepr : Bytes32 → Option ℕ
  generator : G
  /-- The bytes of a stored secp256k1 key. -/
  secp256k1Key : PublicKey → Option (List UInt8)
  secp256k1Point : List UInt8 → Option G
  secp256k1Bytes : G → List UInt8
  /-- `curve25519_dalek::Scalar::from_bytes_mod_order`. -/
  scalarFromBytesModOrder : Bytes32 → ℕ
  edwardsBasepoint : EdwardsPoint
  /-- The Edwards point that is stored with an Ed25519 key. -/
  edwardsPoint : PublicKey → EdwardsPoint
  compress : EdwardsPoint → List UInt8
  /-- `env::ecrecover` of the message, the signature and its recovery id, with the check against
  malleable signatures. -/
  ecrecover : Bytes32 → List UInt8 → UInt8 → Option (List UInt8)
  ed25519Verify : Bytes 64 64 → List UInt8 → List UInt8 → Bool

namespace SignatureHost

variable {G EdwardsPoint : Type} [AddCommGroup G] [DecidableEq G]
  [AddCommGroup EdwardsPoint] (host : SignatureHost G EdwardsPoint)

def deriveFromPath (derivationPrefix : String) (predecessorId : AccountId) (path : String) :
    Bytes32 :=
  host.sha3 (derivationPrefix ++ predecessorId ++ "," ++ path)

variable (predecessorId : AccountId)

def deriveTweak (path : String) : Tweak :=
  host.deriveFromPath "near-mpc-recovery v0.1.0 epsilon derivation:" predecessorId path

def deriveAppId (derivationPath : String) : Bytes32 :=
  host.deriveFromPath "near-mpc v0.1.0 app_id derivation:" predecessorId derivationPath

/-- `none` is `TweakNotOnCurve`: the tweak is no scalar, or the derived point is the identity. -/
def deriveKeySecp256k1 (publicKey : G) (tweak : Tweak) : Option (List UInt8) := do
  let scalar ← host.scalarFromRepr tweak
  let derived := scalar • host.generator + publicKey
  if derived = 0 then none else some (host.secp256k1Bytes derived)

def derivePublicKeyEdwardsPointEd25519 (publicKeyEdwardsPoint : EdwardsPoint) (tweak : Tweak) :
    EdwardsPoint :=
  publicKeyEdwardsPoint + host.scalarFromBytesModOrder tweak • host.edwardsBasepoint

/-- The key that the signature recovers to is the expected one. -/
def verifyEcdsaSignature (signature : K256Signature) (message : Bytes32)
    (publicKey : List UInt8) : Bool :=
  match host.ecrecover message signature.toEcrecoverBytes signature.recoveryId with
  | none => false
  | some recovered => recovered == publicKey

def verifyEddsaSignature (signature : Bytes 64 64) (message publicKey : List UInt8) : Bool :=
  host.ed25519Verify signature message publicKey

end SignatureHost

variable {G EdwardsPoint : Type} (host : SignatureHost G EdwardsPoint)

def SignatureRequest.new (domain : DomainId) (payload : Payload) (predecessorId : AccountId)
    (path : String) : SignatureRequest where
  domainId := domain
  tweak := host.deriveTweak predecessorId path
  payload := payload

def CKDRequest.new (appPublicKey : PublicKey) (domainId : DomainId) (predecessorId : AccountId)
    (derivationPath : String) : CKDRequest where
  appPublicKey := appPublicKey
  appId := host.deriveAppId predecessorId derivationPath
  domainId := domainId

/-! ### The contract with its pending requests -/

namespace ProtocolContractState

def domainRegistry : ProtocolContractState → Outcome Error DomainRegistry
  | .running state => .ok state.domains
  | .resharing state => .ok state.previousRunningState.domains
  | _ => .err .protocolStateNotRunningNorResharing

def publicKey (self : ProtocolContractState) (domainId : DomainId) :
    Outcome Error PublicKeyExtended :=
  match self with
  | .running state => state.keyset.publicKey domainId
  | .resharing state => state.previousRunningState.keyset.publicKey domainId
  | _ => .err .protocolStateNotRunningNorResharing

def isRunningOrResharing : ProtocolContractState → Bool
  | .running _ => true
  | .resharing _ => true
  | _ => false

end ProtocolContractState

/-- The errors of the responses. -/
inductive RequestError where
  | contract (error : Error)
  | teeValidationFailed
  | tweakNotOnCurve
  | signatureSchemeMismatch
  | invalidSignature
  | requestNotFound
deriving DecidableEq, Repr

structure RequestConfig where
  signCallGasAttachmentRequirementTeraGas : ℕ
  ckdCallGasAttachmentRequirementTeraGas : ℕ

/-- The host environment of a request, with the configuration and the policy in force. -/
structure RequestContext extends Env where
  prepaidGas : ℕ
  /-- In yoctonear. -/
  attachedDeposit : ℕ
  config : RequestConfig
  chainInPolicy : ForeignChain → Bool

/-- The host numbers the yields of the contract. -/
abbrev DataId := ℕ

/-- A `LookupMap` from the pending requests to the data ids of their yields. -/
abbrev PendingRequests (Request : Type) := Request → Option DataId

namespace PendingRequests

variable {Request : Type} [DecidableEq Request] (pending : PendingRequests Request)
  (request : Request)

def add (dataId : DataId) : PendingRequests Request :=
  Function.update pending request (some dataId)

def remove : PendingRequests Request :=
  Function.update pending request none

/-- Takes the yield of the request out of the map, to be resumed. -/
def resolve : Outcome RequestError (PendingRequests Request × DataId) := do
  let dataId ← okOr (pending request) .requestNotFound
  return (remove pending request, dataId)

end PendingRequests

structure Metrics where
  signWithV1PayloadCount : ℕ := 0
  signWithV2PayloadCount : ℕ := 0

structure RequestContract where
  contract : MpcContract
  pendingSignatureRequests : PendingRequests SignatureRequest
  pendingCkdRequests : PendingRequests CKDRequest
  pendingVerifyForeignTxRequests : PendingRequests VerifyForeignTransactionRequest
  metrics : Metrics

namespace RequestContract

/-! ### Submissions

A submission takes the data id that the host gives to its yield, and returns the request that it
hands to the callback. -/

/-- `Gas::from_tgas`: an unchecked `u64` multiplication. -/
def gasFromTgas (teraGas : ℕ) : ℕ := teraGas * 10 ^ 12 % counterLimit

/-- For signatures and for confidential keys alike. -/
def minimumRequestDeposit : ℕ := 1

/-- The domain a request is for, which must have the right purpose. -/
def targetDomain (self : RequestContract) (domainId : DomainId) (purpose : DomainPurpose) :
    Outcome RequestError DomainConfig :=
  match self.contract.protocolState.domainRegistry with
  | .ok domains => do
      let domainConfig ← unwrap (domains.getDomainByDomainId domainId)
      guardPanic (domainConfig.purpose = purpose)
      return domainConfig
  | _ => .panicked

def checkGasAndDeposit (context : RequestContext) (requiredTeraGas : ℕ) :
    Outcome RequestError Unit := do
  guardPanic (gasFromTgas requiredTeraGas ≤ context.prepaidGas)
  guardPanic (minimumRequestDeposit ≤ context.attachedDeposit)

section Signatures

variable {G EdwardsPoint : Type} (host : SignatureHost G EdwardsPoint)

/-- The nodes would fail on these payloads. -/
def checkPayload (scheme : SignatureScheme) (payload : Payload) : Outcome RequestError Unit :=
  match scheme with
  | .secp256k1 | .v2Secp256k1 => do
      let hash ← unwrap payload.asEcdsa
      let _ ← unwrap (host.scalarFromRepr hash)
  | .ed25519 => do
      let _ ← unwrap payload.asEddsa
  | .bls12381 => .panicked

variable (self : RequestContract) (context : RequestContext) (dataId : DataId)

def sign (args : SignRequestArgs) : Outcome RequestError (RequestContract × SignatureRequest) := do
  let metrics : Metrics :=
    { signWithV1PayloadCount :=
        if args.deprecatedPayload.isSome then
          (self.metrics.signWithV1PayloadCount + 1) % counterLimit
        else self.metrics.signWithV1PayloadCount
      signWithV2PayloadCount :=
        if args.payloadV2.isSome then
          (self.metrics.signWithV2PayloadCount + 1) % counterLimit
        else self.metrics.signWithV2PayloadCount }
  let request ← unwrap (SignRequest.tryFrom args)
  let domainConfig ← self.targetDomain request.domainId .sign
  checkPayload host domainConfig.scheme request.payload
  checkGasAndDeposit context context.config.signCallGasAttachmentRequirementTeraGas
  let request := SignatureRequest.new host request.domainId request.payload
    context.predecessorAccountId request.path
  guardPanic (self.contract.acceptRequests = true)
  return ({ self with
    metrics
    pendingSignatureRequests := self.pendingSignatureRequests.add request dataId }, request)

def requestAppPrivateKey (args : CKDRequestArgs) :
    Outcome RequestError (RequestContract × CKDRequest) := do
  let _ ← self.targetDomain args.domainId .ckd
  checkGasAndDeposit context context.config.ckdCallGasAttachmentRequirementTeraGas
  guardPanic (self.contract.acceptRequests = true)
  let request := CKDRequest.new host args.appPublicKey args.domainId context.predecessorAccountId
    args.derivationPath
  return ({ self with
    pendingCkdRequests := self.pendingCkdRequests.add request dataId }, request)

def verifyForeignTransaction (args : VerifyForeignTransactionRequest) :
    Outcome RequestError (RequestContract × VerifyForeignTransactionRequest) := do
  let _ ← self.targetDomain args.domainId .foreignTx
  guardPanic (context.chainInPolicy args.request.chain = true)
  checkGasAndDeposit context context.config.signCallGasAttachmentRequirementTeraGas
  guardPanic (self.contract.acceptRequests = true)
  return ({ self with
    pendingVerifyForeignTxRequests := self.pendingVerifyForeignTxRequests.add args dataId }, args)

/-! ### Responses

A response returns the data id of the yield that it resumes. -/

variable [AddCommGroup G] [DecidableEq G] [AddCommGroup EdwardsPoint]

/-- The match of `respond` on the response and the key of the domain. -/
def signatureIsValid (request : SignatureRequest) (response : SignatureResponse)
    (publicKey : PublicKeyExtended) : Outcome RequestError Bool :=
  match response, publicKey with
  | .secp256k1 signatureResponse, .secp256k1 nearPublicKey => do
      let secpPk ← unwrap (host.secp256k1Key nearPublicKey)
      let affine ← unwrap (host.secp256k1Point secpPk)
      let expectedPublicKey ← okOr (host.deriveKeySecp256k1 affine request.tweak) .tweakNotOnCurve
      let payloadHash ← unwrap request.payload.asEcdsa
      return host.verifyEcdsaSignature signatureResponse payloadHash expectedPublicKey
  | .ed25519 signature, .ed25519 nearPublicKeyCompressed => do
      let derived := host.derivePublicKeyEdwardsPointEd25519
        (host.edwardsPoint nearPublicKeyCompressed) request.tweak
      let message ← unwrap request.payload.asEddsa
      return host.verifyEddsaSignature signature message (host.compress derived)
  | _, _ => .err .signatureSchemeMismatch

/-- The signature of a foreign transaction is checked against the key of the domain itself. -/
def foreignSignatureIsValid (response : VerifyForeignTransactionResponse)
    (publicKey : PublicKeyExtended) : Outcome RequestError Bool :=
  match response.signature, publicKey with
  | .secp256k1 signatureResponse, .secp256k1 nearPublicKey => do
      let secpPk ← unwrap (host.secp256k1Key nearPublicKey)
      return host.verifyEcdsaSignature signatureResponse response.payloadHash secpPk
  | _, _ => .err .signatureSchemeMismatch

variable (self : RequestContract) (env : Env) (tee : TeeView)

def assertCallerIsAttestedParticipant : Outcome RequestError Unit :=
  mapErr .contract (self.contract.assertCallerIsAttestedParticipantAndProtocolActive env tee)

def checkAcceptsResponses (self : RequestContract) : Outcome RequestError Unit := do
  require (self.contract.protocolState.isRunningOrResharing = true)
    (.contract .protocolStateNotRunning)
  require (self.contract.acceptRequests = true) .teeValidationFailed

def respond (request : SignatureRequest) (response : SignatureResponse) :
    Outcome RequestError (RequestContract × DataId) := do
  let _ ← mapErr .contract (MpcContract.assertCallerIsSigner env)
  self.assertCallerIsAttestedParticipant env tee
  self.checkAcceptsResponses
  let publicKey ← mapErr .contract (self.contract.protocolState.publicKey request.domainId)
  let isValid ← signatureIsValid host request response publicKey
  require (isValid = true) .invalidSignature
  let (pendingSignatureRequests, dataId) ← self.pendingSignatureRequests.resolve request
  return ({ self with pendingSignatureRequests }, dataId)

/-- The response itself is not checked. -/
def respondCkd (request : CKDRequest) : Outcome RequestError (RequestContract × DataId) := do
  let _ ← mapErr .contract (MpcContract.assertCallerIsSigner env)
  self.checkAcceptsResponses
  self.assertCallerIsAttestedParticipant env tee
  let (pendingCkdRequests, dataId) ← self.pendingCkdRequests.resolve request
  return ({ self with pendingCkdRequests }, dataId)

def respondVerifyForeignTx (request : VerifyForeignTransactionRequest)
    (response : VerifyForeignTransactionResponse) :
    Outcome RequestError (RequestContract × DataId) := do
  let _ ← mapErr .contract (MpcContract.assertCallerIsSigner env)
  self.assertCallerIsAttestedParticipant env tee
  self.checkAcceptsResponses
  let publicKey ← mapErr .contract (self.contract.protocolState.publicKey request.domainId)
  let isValid ← foreignSignatureIsValid host response publicKey
  require (isValid = true) .invalidSignature
  let (pendingVerifyForeignTxRequests, dataId) ←
    self.pendingVerifyForeignTxRequests.resolve request
  return ({ self with pendingVerifyForeignTxRequests }, dataId)

end Signatures

/-! ### Callbacks

The host calls back with the response, or with `none` after the timeout. The callback returns the
response, or `none` for a call that fails the original transaction. -/

variable (self : RequestContract)

def returnSignatureAndCleanStateOnSuccess (request : SignatureRequest)
    (signature : Option SignatureResponse) : RequestContract × Option SignatureResponse :=
  match signature with
  | some signature => (self, some signature)
  | none =>
      ({ self with
        pendingSignatureRequests := self.pendingSignatureRequests.remove request }, none)

def returnCkAndCleanStateOnSuccess (request : CKDRequest) (ck : Option CKDResponse) :
    RequestContract × Option CKDResponse :=
  match ck with
  | some ck => (self, some ck)
  | none => ({ self with pendingCkdRequests := self.pendingCkdRequests.remove request }, none)

def returnVerifyForeignTxAndCleanStateOnSuccess (request : VerifyForeignTransactionRequest)
    (response : Option VerifyForeignTransactionResponse) :
    RequestContract × Option VerifyForeignTransactionResponse :=
  match response with
  | some response => (self, some response)
  | none =>
      ({ self with
        pendingVerifyForeignTxRequests :=
          self.pendingVerifyForeignTxRequests.remove request }, none)

end RequestContract

end NearMpc.Contract
