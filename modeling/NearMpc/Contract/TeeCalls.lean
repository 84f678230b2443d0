import NearMpc.Contract.TeeState

/-!
# Calls on the attestation state

The contract with its attestation state, the public methods of `lib.rs` that change it, and runs of
all calls. The calls on the protocol state are those of `Calls`; here the view they have of the
attestation state is computed from the state that is stored.
-/

set_option autoImplicit false

namespace NearMpc.Contract

open Library Library.Outcome
open Std (TreeMap)

/-- The threshold in force. -/
def ProtocolContractState.threshold : ProtocolContractState → Outcome Error ℕ
  | .initializing state => .ok state.generatingKey.parameters.threshold
  | .running state => .ok state.parameters.threshold
  | .resharing state => .ok state.previousRunningState.parameters.threshold
  | .notInitialized => .err .unexpectedProtocolState

/-- The errors of `submit_participant_info`. -/
inductive SubmissionError where
  | dataConversion
  | invalidTeeRemoteAttestation (error : AttestationSubmissionError)
  | insufficientDeposit (attached required : ℕ)
deriving DecidableEq, Repr

inductive TeeCallError where
  | contract (error : Error)
  | submission (error : SubmissionError)
deriving DecidableEq, Repr

/-- The contract with its attestation state. -/
structure TeeContract where
  contract : MpcContract
  teeState : TeeState
  teeUpgradeDeadlineDurationSeconds : ℕ

inductive TeeMethod where
  | onProtocol (method : Method)
  | voteCodeHash (codeHash : MpcDockerImageHash)
  | submitParticipantInfo (attestation : Option Attestation) (tlsPublicKey : PublicKey)
  | cleanTeeStatus

structure TeeCall where
  context : Context
  method : TeeMethod

namespace TeeContract

variable (host : AttestationHost) (self : TeeContract) (context : Context)

/-- The attestation state with which a method on the protocol state works: a proposal and a
reverification of the participants forget expired images first. -/
def teeStateFor : Method → TeeState
  | .voteNewParameters _ _ =>
      self.teeState.cleanupExpiredHashes context self.teeUpgradeDeadlineDurationSeconds
  | .verifyTee =>
      self.teeState.cleanupExpiredHashes context self.teeUpgradeDeadlineDurationSeconds
  | _ => self.teeState

def onProtocol (method : Method) : Outcome Error TeeContract := do
  let teeState := self.teeStateFor context method
  let contract ← self.contract.perform
    { env := context.toEnv
      tee := teeState.view context self.teeUpgradeDeadlineDurationSeconds
      method }
  return { self with contract, teeState }

def voteCodeHash (codeHash : MpcDockerImageHash) : Outcome Error TeeContract := do
  let _ ← self.contract.voterOrPanic context.toEnv
  let thresholdParameters ← unwrap self.contract.protocolState.thresholdParameters
  let participant ← authenticatedParticipantId context.toEnv thresholdParameters.participants
  let (teeState, votes) := self.teeState.vote codeHash participant
  let threshold ← self.contract.protocolState.threshold
  if threshold ≤ votes then
    return { self with
      teeState := teeState.whitelistTeeProposal host context
        self.teeUpgradeDeadlineDurationSeconds codeHash }
  else return { self with teeState }

/-- The largest `u128`. -/
def maxCost : ℕ := 2 ^ 128 - 1

variable (before after : TeeState)

/-- The price of the storage that has been used. The subtraction of two `u64` wraps, the product
saturates. -/
def storageCost : ℕ :=
  min maxCost (host.storageByteCost *
    ((host.storageUsage after + counterLimit - host.storageUsage before) % counterLimit))

/-- The caller pays for the storage that has been used. -/
def payForStorage : Outcome SubmissionError Unit :=
  require (storageCost host before after ≤ context.attachedDeposit)
    (.insufficientDeposit context.attachedDeposit (storageCost host before after))

def submitParticipantInfo (attestation : Option Attestation) (tlsPublicKey : PublicKey) :
    Outcome SubmissionError TeeContract := do
  let attestation ← okOr attestation .dataConversion
  guardPanic (context.signerAccountId = context.predecessorAccountId)
  match self.teeState.addParticipant host context self.teeUpgradeDeadlineDurationSeconds
      { accountId := context.signerAccountId
        tlsPublicKey
        accountPublicKey := some context.signerAccountPk } attestation with
  | .error error => .err (.invalidTeeRemoteAttestation error)
  | .ok (teeState, insertion) => do
      if insertion = .newlyInsertedParticipant ∨
          self.contract.protocolState.authenticateUpdateVote context.toEnv ≠ .ok () then
        payForStorage host context self.teeState teeState
      return { self with teeState }

/-- A submission stores the attestation of the submitter under the submitted key. -/
theorem submitParticipantInfo_eq_ok {host : AttestationHost} {before after : TeeContract}
    {context : Context} {attestation : Option Attestation} {tlsPublicKey : PublicKey}
    (hok : before.submitParticipantInfo host context attestation tlsPublicKey = .ok after) :
    ∃ verifiedAttestation, after = { before with teeState :=
          { before.teeState with
            storedAttestations := before.teeState.storedAttestations.insert tlsPublicKey
              { nodeId :=
                  { accountId := context.signerAccountId
                    tlsPublicKey
                    accountPublicKey := some context.signerAccountPk }
                verifiedAttestation } } } := by
  simp only [submitParticipantInfo, bind_eq_ok, okOr_eq_ok] at hok
  obtain ⟨_, -, -, -, hok⟩ := hok
  split at hok
  next => simp at hok
  next teeState insertion hadded =>
    have hafter : after = { before with teeState } := by
      split_ifs at hok with hpays
      · rw [bind_eq_ok] at hok
        obtain ⟨-, -, hok⟩ := hok
        exact (ok.inj hok).symm
      · exact (ok.inj hok).symm
    obtain ⟨verifiedAttestation, hstored⟩ := TeeState.addParticipant_eq_ok hadded
    exact ⟨verifiedAttestation, hafter.trans (by rw [hstored])⟩

def cleanTeeStatus : Outcome Error TeeContract :=
  match self.contract.protocolState with
  | .running state =>
      .ok { self with teeState := self.teeState.cleanNonParticipants state.parameters.participants }
  | _ => .err .protocolStateNotRunning

variable (call : TeeCall)

def perform : Outcome TeeCallError TeeContract :=
  match call.method with
  | .onProtocol method => mapErr .contract (self.onProtocol call.context method)
  | .voteCodeHash codeHash => mapErr .contract (self.voteCodeHash host call.context codeHash)
  | .submitParticipantInfo attestation tlsPublicKey =>
      mapErr .submission (self.submitParticipantInfo host call.context attestation tlsPublicKey)
  | .cleanTeeStatus => mapErr .contract self.cleanTeeStatus

/-- One transaction: a failed call changes nothing. -/
def apply : TeeContract :=
  match self.perform host call with
  | .ok next => next
  | _ => self

/-- The call changed nothing, or its method succeeded. -/
theorem apply_cases :
    self.apply host call = self ∨ self.perform host call = .ok (self.apply host call) := by
  unfold apply
  cases hperform : self.perform host call with
  | ok => exact Or.inr rfl
  | err => exact Or.inl rfl
  | panicked => exact Or.inl rfl

/-- A fresh deployment: the initial participants have mock attestations. -/
def Deployed : Prop :=
  self.contract.Deployed ∧ ∃ parameters,
    self.contract.protocolState.thresholdParameters = some parameters ∧
      self.teeState = TeeState.withMockedParticipantAttestations parameters.participants

end TeeContract

end NearMpc.Contract
