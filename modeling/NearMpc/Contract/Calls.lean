import NearMpc.Contract.ProtocolState
import NearMpc.Library.Run

/-!
# Calls of the contract

The public methods of `lib.rs` that read or change the protocol state, and runs of them. A call
whose method returns an error or panics leaves the contract as it was (`MpcContract.apply`).
-/

set_option autoImplicit false

namespace NearMpc.Contract

open Library Library.Outcome
open Std (TreeMap)

/-! ### Attestation -/

structure NodeId where
  accountId : AccountId
  tlsPublicKey : PublicKey
  accountPublicKey : Option PublicKey
deriving DecidableEq, Repr

/-- What a call sees of the attestation state. -/
structure TeeView where
  /-- The node whose attestation is stored under a TLS key. -/
  storedNodeId : PublicKey → Option NodeId
  /-- Whether the stored quote of a node verifies at the time of the call. -/
  reverifyParticipant : NodeId → Bool

inductive TeeValidationResult where
  | full
  | partially (participantsWithValidAttestation : Participants)

namespace TeeView

def reverifyAndCleanupParticipants (self : TeeView) (participants : Participants) :
    TeeValidationResult :=
  let valid := participants.participants.filter fun entry ↦
    self.reverifyParticipant
      { accountId := entry.1
        tlsPublicKey := entry.2.2.signPk
        accountPublicKey :=
          (self.storedNodeId entry.2.2.signPk).bind fun nodeId ↦ nodeId.accountPublicKey }
  if valid.length ≠ participants.len then
    .partially { nextId := participants.nextId, participants := valid }
  else .full

/-- The caller is a participant whose stored attestation is its own. -/
def isCallerAnAttestedParticipant (self : TeeView) (env : Env) (participants : Participants) :
    Bool :=
  match participants.info env.signerAccountId with
  | none => false
  | some info =>
      match self.storedNodeId info.signPk with
      | none => false
      | some nodeId =>
          nodeId.accountId == env.signerAccountId &&
            nodeId.accountPublicKey.all fun nodePk ↦ nodePk == env.signerAccountPk

end TeeView

/-! ### The contract -/

structure DestinationNodeInfo where
  signerAccountPk : PublicKey
  destinationNodeInfo : ParticipantInfo
deriving DecidableEq, Repr

structure MpcContract where
  protocolState : ProtocolContractState
  acceptRequests : Bool
  keyEventTimeoutBlocks : ℕ
  ongoingMigrations : TreeMap AccountId DestinationNodeInfo

namespace MpcContract

/-- The contract of a fresh deployment; the timeout comes from the initial configuration. -/
def init (parameters : ThresholdParameters) (keyEventTimeoutBlocks : ℕ) :
    Outcome Error MpcContract := do
  parameters.validate
  return { protocolState := .running (RunningContractState.new {}
             { epochId := 0, domains := [] } parameters {})
           acceptRequests := true
           keyEventTimeoutBlocks
           ongoingMigrations := ∅ }

/-- The contract of a deployment that takes over an existing network. -/
def initRunning (domains : List DomainConfig) (nextDomainId : ℕ) (keyset : Keyset)
    (parameters : ThresholdParameters) (keyEventTimeoutBlocks : ℕ) :
    Outcome Error MpcContract := do
  parameters.validate
  let registry ← DomainRegistry.fromRawValidated domains nextDomainId
  require (registry.domains.map (fun domain ↦ domain.id) =
    keyset.domains.map fun key ↦ key.domainId) .domainsMismatch
  return { protocolState := .running (RunningContractState.new registry keyset parameters {})
           acceptRequests := true
           keyEventTimeoutBlocks
           ongoingMigrations := ∅ }

def assertCallerIsSigner (env : Env) : Outcome Error AccountId := do
  guardPanic (env.signerAccountId = env.predecessorAccountId)
  return env.signerAccountId

variable (self : MpcContract) (env : Env)

def assertCallerIsAttestedParticipantAndProtocolActive (tee : TeeView) : Outcome Error Unit := do
  let participants ← self.protocolState.activeParticipants
  let _ ← assertCallerIsSigner env
  guardPanic (tee.isCallerAnAttestedParticipant env participants)

/-- Every failure of the inner authentication is turned into a panic. -/
def voterOrPanic : Outcome Error AccountId := do
  let _ ← assertCallerIsSigner env
  match self.protocolState.authenticateUpdateVote env with
  | .ok _ => return env.signerAccountId
  | _ => .panicked

def voteNewParameters (tee : TeeView) (prospectiveEpochId : EpochId)
    (proposal : ThresholdParameters) : Outcome Error MpcContract :=
  match tee.reverifyAndCleanupParticipants proposal.participants with
  | .full => do
      let transition ← self.protocolState.voteNewParameters env prospectiveEpochId proposal
      return { self with protocolState := .install transition }
  | .partially valid => .err (.invalidTeeRemoteAttestation
      ((proposal.participants.participants.map fun entry ↦ entry.1).filter fun accountId ↦
        !valid.isParticipantGivenAccountId accountId))

def voteAddDomains (domains : List DomainConfig) : Outcome Error MpcContract := do
  let transition ← self.protocolState.voteAddDomains env domains
  return { self with protocolState := .install transition }

variable (tee : TeeView) (keyEventId : KeyEventId)

def startKeygenInstance : Outcome Error MpcContract := do
  self.assertCallerIsAttestedParticipantAndProtocolActive env tee
  let protocolState ←
    self.protocolState.startKeygenInstance env keyEventId self.keyEventTimeoutBlocks
  return { self with protocolState }

/-- The key arrives in its interface form; `none` stands for one that does not convert. -/
def votePk (publicKey : Option PublicKeyExtended) : Outcome Error MpcContract := do
  self.assertCallerIsAttestedParticipantAndProtocolActive env tee
  let extendedKey ← okOr publicKey .malformedPayload
  let transition ← self.protocolState.votePk env keyEventId extendedKey
  return { self with protocolState := .install transition }

def startReshareInstance : Outcome Error MpcContract := do
  self.assertCallerIsAttestedParticipantAndProtocolActive env tee
  let protocolState ←
    self.protocolState.startReshareInstance env keyEventId self.keyEventTimeoutBlocks
  return { self with protocolState }

def voteReshared : Outcome Error MpcContract := do
  self.assertCallerIsAttestedParticipantAndProtocolActive env tee
  let transition ← self.protocolState.voteReshared env keyEventId
  return { self with protocolState := .install transition }

def voteCancelResharing : Outcome Error MpcContract := do
  let transition ← self.protocolState.voteCancelResharing env
  return { self with protocolState := .install transition }

def voteCancelKeygen (nextDomainId : ℕ) : Outcome Error MpcContract := do
  let transition ← self.protocolState.voteCancelKeygen env nextDomainId
  return { self with protocolState := .install transition }

def voteAbortKeyEventInstance : Outcome Error MpcContract := do
  self.assertCallerIsAttestedParticipantAndProtocolActive env tee
  let protocolState ← self.protocolState.voteAbortKeyEventInstance env keyEventId
  return { self with protocolState }

/-- Reverifies the participants' attestations and reshares to those that are still valid, if they
reach the threshold. -/
def verifyTee (tee : TeeView) : Outcome Error (MpcContract × Bool) := do
  let _ ← self.voterOrPanic env
  match self.protocolState with
  | .running state =>
      match tee.reverifyAndCleanupParticipants state.parameters.participants with
      | .full => return ({ self with acceptRequests := true }, true)
      | .partially valid =>
          if valid.len < state.parameters.threshold then
            return ({ self with acceptRequests := false }, false)
          else
            -- `ThresholdParameters::new(..).expect(..)`
            match ThresholdParameters.new valid state.parameters.threshold with
            | .ok thresholdParameters => do
                state.parameters.validateIncomingProposal thresholdParameters
                let (state, resharing) := state.transitionToResharingNoChecks thresholdParameters
                return ({ self with
                  acceptRequests := true
                  protocolState := (resharing.map .resharing).getD (.running state) }, true)
            | _ => .panicked
  | _ => .err .protocolStateNotRunning

def startNodeMigration (destinationNodeInfo : DestinationNodeInfo) : Outcome Error MpcContract := do
  let accountId ← assertCallerIsSigner env
  match self.protocolState with
  | .running state =>
      require (state.parameters.participants.isParticipantGivenAccountId accountId) .notParticipant
      return { self with
        ongoingMigrations := self.ongoingMigrations.insert accountId destinationNodeInfo }
  | _ => .err .protocolStateNotRunning

def concludeNodeMigration (tee : TeeView) (keyset : Keyset) : Outcome Error MpcContract := do
  let accountId ← assertCallerIsSigner env
  match self.protocolState with
  | .running state =>
      require (state.parameters.participants.isParticipantGivenAccountId accountId) .notParticipant
      require (state.keyset = keyset) .keysetMismatch
      let expected ← okOr self.ongoingMigrations[accountId]? .migrationNotFound
      require (expected.signerAccountPk = env.signerAccountPk) .accountPublicKeyMismatch
      require (tee.reverifyParticipant
        { accountId
          tlsPublicKey := expected.destinationNodeInfo.signPk
          accountPublicKey := some expected.signerAccountPk }) (.invalidTeeRemoteAttestation [])
      let parameters ← state.parameters.updateInfo accountId expected.destinationNodeInfo
      return { self with
        protocolState := .running { state with parameters }
        ongoingMigrations := self.ongoingMigrations.erase accountId }
  | _ => .err .protocolStateNotRunning

end MpcContract

/-! ### Runs -/

inductive Method where
  | voteNewParameters (prospectiveEpochId : EpochId) (proposal : ThresholdParameters)
  | voteAddDomains (domains : List DomainConfig)
  | startKeygenInstance (keyEventId : KeyEventId)
  | votePk (keyEventId : KeyEventId) (publicKey : Option PublicKeyExtended)
  | startReshareInstance (keyEventId : KeyEventId)
  | voteReshared (keyEventId : KeyEventId)
  | voteCancelResharing
  | voteCancelKeygen (nextDomainId : ℕ)
  | voteAbortKeyEventInstance (keyEventId : KeyEventId)
  | verifyTee
  | startNodeMigration (destinationNodeInfo : DestinationNodeInfo)
  | concludeNodeMigration (keyset : Keyset)

/-- A method call with the environment and the attestation state it meets. -/
structure Call where
  env : Env
  tee : TeeView
  method : Method

namespace MpcContract

variable (self : MpcContract) (call : Call)

/-- The method of a call, as a state change. -/
def perform : Outcome Error MpcContract :=
  match call.method with
  | .voteNewParameters prospectiveEpochId proposal =>
      self.voteNewParameters call.env call.tee prospectiveEpochId proposal
  | .voteAddDomains domains => self.voteAddDomains call.env domains
  | .startKeygenInstance keyEventId => self.startKeygenInstance call.env call.tee keyEventId
  | .votePk keyEventId publicKey => self.votePk call.env call.tee keyEventId publicKey
  | .startReshareInstance keyEventId => self.startReshareInstance call.env call.tee keyEventId
  | .voteReshared keyEventId => self.voteReshared call.env call.tee keyEventId
  | .voteCancelResharing => self.voteCancelResharing call.env
  | .voteCancelKeygen nextDomainId => self.voteCancelKeygen call.env nextDomainId
  | .voteAbortKeyEventInstance keyEventId =>
      self.voteAbortKeyEventInstance call.env call.tee keyEventId
  | .verifyTee => do return (← self.verifyTee call.env call.tee).1
  | .startNodeMigration destinationNodeInfo =>
      self.startNodeMigration call.env destinationNodeInfo
  | .concludeNodeMigration keyset => self.concludeNodeMigration call.env call.tee keyset

/-- One transaction: a failed call changes nothing. -/
def apply : MpcContract :=
  match self.perform call with
  | .ok next => next
  | _ => self

/-- What the contract starts from: either of its initializers. -/
def Deployed (contract : MpcContract) : Prop :=
  (∃ parameters timeout, init parameters timeout = .ok contract) ∨
    ∃ domains nextDomainId keyset parameters timeout,
      initRunning domains nextDomainId keyset parameters timeout = .ok contract

/-- The call changed nothing, or its method succeeded. -/
theorem apply_cases : self.apply call = self ∨ self.perform call = .ok (self.apply call) := by
  unfold apply
  cases hperform : self.perform call with
  | ok => exact Or.inr rfl
  | err => exact Or.inl rfl
  | panicked => exact Or.inl rfl

/-! ### A network of two -/

namespace TwoNodes

def parameters : ThresholdParameters where
  participants :=
    { nextId := 2
      participants := [("alice", 0, { url := "a", signPk := "alice" }),
        ("bob", 1, { url := "b", signPk := "bob" })] }
  threshold := 2

def firstDomain : DomainConfig := { id := 0, scheme := .secp256k1, purpose := .sign }

def keyset : Keyset where
  epochId := 0
  domains := [{ domainId := 0, key := .secp256k1 "key", attempt := 0 }]

/-- A network with one key, in epoch 0. -/
def network : MpcContract where
  protocolState := .running (RunningContractState.new
    { domains := [firstDomain], nextDomainId := 1 } keyset parameters {})
  acceptRequests := true
  keyEventTimeoutBlocks := 10
  ongoingMigrations := ∅

theorem network_deployed : Deployed network :=
  .inr ⟨[firstDomain], 1, keyset, parameters, 10, rfl⟩

def envOf (account : AccountId) : Env where
  signerAccountId := account
  signerAccountPk := account
  predecessorAccountId := account
  blockHeight := 5

/-- All nodes are attested, under the names of their accounts. -/
def attested : TeeView where
  storedNodeId := fun tlsKey ↦ some
    { accountId := tlsKey, tlsPublicKey := tlsKey, accountPublicKey := none }
  reverifyParticipant := fun _ ↦ true

def signedBy (account : AccountId) (method : Method) : Call :=
  { env := envOf account, tee := attested, method }

end TwoNodes

end MpcContract

end NearMpc.Contract
