import NearMpc.Contract.KeyState

/-!
# The protocol state of the contract

The contract is running, generating the keys of newly added domains, or resharing all keys to new
threshold parameters. Follows `state/running.rs`, `state/initializing.rs`, `state/resharing.rs`
and `state.rs`. A method on `&mut self` returns the changed state together with its result; the
state of a failed call is discarded, as the host discards it.
-/

set_option autoImplicit false

namespace NearMpc.Contract

open Library Library.Outcome
open Std (TreeMap)

/-! ### The states -/

/-- Ready to process requests; proposals to add domains or change the parameters are voted on. -/
structure RunningContractState where
  domains : DomainRegistry
  keyset : Keyset
  parameters : ThresholdParameters
  parametersVotes : ThresholdParametersVotes
  addDomainsVotes : AddDomainsVotes
  previouslyCancelledResharingEpochId : Option EpochId

/-- Generating the keys of the domains that have none yet, one at a time. -/
structure InitializingContractState where
  domains : DomainRegistry
  epochId : EpochId
  generatedKeys : List KeyForDomain
  generatingKey : KeyEvent
  cancelVotes : Finset ParticipantId

/-- Resharing the keys of all domains to new parameters, one at a time. -/
structure ResharingContractState where
  previousRunningState : RunningContractState
  resharedKeys : List KeyForDomain
  resharingKey : KeyEvent
  cancellationRequests : Finset AccountId

inductive ProtocolContractState where
  | notInitialized
  | initializing (state : InitializingContractState)
  | running (state : RunningContractState)
  | resharing (state : ResharingContractState)

/-! ### Running -/

namespace RunningContractState

def new (domains : DomainRegistry) (keyset : Keyset) (parameters : ThresholdParameters)
    (addDomainsVotes : AddDomainsVotes) : RunningContractState where
  domains := domains
  keyset := keyset
  parameters := parameters
  parametersVotes := {}
  addDomainsVotes := addDomainsVotes.getRemainingVotes parameters.participants
  previouslyCancelledResharingEpochId := none

variable (self : RunningContractState)

/-- The epoch id a resharing entered from this state gets: one above the last cancelled resharing
if that is remembered, otherwise one above the keyset's. -/
def prospectiveEpochId : EpochId :=
  EpochId.next (match self.previouslyCancelledResharingEpochId with
    | some cancelledEpochId => cancelledEpochId
    | none => self.keyset.epochId)

/-- Enters resharing for the proposal, or, with no key to reshare, bumps the epoch in place. -/
def transitionToResharingNoChecks (proposal : ThresholdParameters) :
    RunningContractState × Option ResharingContractState :=
  match self.domains.getDomainByIndex 0 with
  | some firstDomain =>
      (self, some
        { previousRunningState :=
            new self.domains self.keyset self.parameters self.addDomainsVotes
          resharedKeys := []
          resharingKey := KeyEvent.new self.prospectiveEpochId firstDomain proposal
          cancellationRequests := ∅ })
  | none =>
      (new self.domains { epochId := EpochId.next self.keyset.epochId, domains := [] } proposal
        self.addDomainsVotes, none)

variable (env : Env)

/-- Votes for the proposal; true when every proposed participant has voted for it. -/
def processNewParametersProposal (proposal : ThresholdParameters) :
    Outcome Error (RunningContractState × Bool) := do
  self.parameters.validateIncomingProposal proposal
  let candidate ← authenticatedAccountId env proposal.participants
  -- a signer from outside the current epoch waits for `threshold` current votes to admit it
  require (self.parameters.participants.isParticipantGivenAccountId env.signerAccountId ∨
    self.parameters.threshold ≤
      self.parametersVotes.nVotes proposal self.parameters.participants) .voterPending
  let (parametersVotes, nVotes) := self.parametersVotes.vote proposal candidate
  return ({ self with parametersVotes }, decide (proposal.participants.len = nVotes))

def voteNewParameters (prospectiveEpochId : EpochId) (proposal : ThresholdParameters) :
    Outcome Error (RunningContractState × Option ResharingContractState) := do
  require (prospectiveEpochId = self.prospectiveEpochId)
    (.epochMismatch prospectiveEpochId self.prospectiveEpochId)
  let (self, accepted) ← self.processNewParametersProposal env proposal
  if accepted then return self.transitionToResharingNoChecks proposal
  else return (self, none)

/-- The loop of `vote_add_domains` over the proposed domains. -/
def checkSchemes : List DomainConfig → Outcome Error Unit
  | [] => .ok ()
  | domain :: rest => do
      require (isValidSchemeForPurpose domain.purpose domain.scheme)
        (.invalidSchemePurposeCombination domain.scheme domain.purpose)
      checkSchemes rest

def voteAddDomains (domains : List DomainConfig) :
    Outcome Error (RunningContractState × Option InitializingContractState) := do
  require (domains ≠ []) .addDomainsMustAddAtLeastOneDomain
  checkSchemes domains
  let participant ← authenticatedParticipantId env self.parameters.participants
  let (addDomainsVotes, nVotes) := self.addDomainsVotes.vote domains participant
  if self.parameters.participants.len = nVotes then
    let newDomains ← self.domains.addDomains domains
    let firstDomain ← unwrap domains.head?
    return ({ self with addDomainsVotes }, some
      { generatedKeys := self.keyset.domains
        domains := newDomains
        epochId := self.keyset.epochId
        generatingKey := KeyEvent.new self.keyset.epochId firstDomain self.parameters
        cancelVotes := ∅ })
  else
    return ({ self with addDomainsVotes }, none)

end RunningContractState

/-! ### Initializing -/

namespace InitializingContractState

variable (self : InitializingContractState) (env : Env) (keyEventId : KeyEventId)

def start (keyEventTimeoutBlocks : ℕ) : Outcome Error InitializingContractState := do
  let generatingKey ← self.generatingKey.start env keyEventId keyEventTimeoutBlocks
  return { self with generatingKey }

/-- Casts a vote for a generated key; when all agree, moves on to the next domain or to running. -/
def votePk (publicKey : PublicKeyExtended) :
    Outcome Error (InitializingContractState × Option RunningContractState) := do
  let (generatingKey, all) ← self.generatingKey.voteSuccess env keyEventId publicKey
  if all then
    let generatedKeys := self.generatedKeys ++
      [{ domainId := keyEventId.domainId, key := publicKey, attempt := keyEventId.attemptId }]
    match self.domains.getDomainByIndex generatedKeys.length with
    | some nextDomain =>
        return ({ self with
          generatedKeys
          generatingKey := KeyEvent.new self.epochId nextDomain generatingKey.parameters }, none)
    | none =>
        return ({ self with generatedKeys, generatingKey }, some (.new
          self.domains { epochId := self.epochId, domains := generatedKeys }
          generatingKey.parameters {}))
  else
    return ({ self with generatingKey }, none)

def voteAbort : Outcome Error InitializingContractState := do
  let generatingKey ← self.generatingKey.voteAbort env keyEventId
  return { self with generatingKey }

/-- Casts a vote to give up the domains that have no key yet. -/
def voteCancel (self : InitializingContractState) (env : Env) (nextDomainId : ℕ) :
    Outcome Error (InitializingContractState × Option RunningContractState) := do
  require (nextDomainId = self.domains.nextDomainId) .nextDomainIdMismatch
  let participant ← authenticatedParticipantId env self.generatingKey.parameters.participants
  let requiredThreshold := self.generatingKey.parameters.threshold
  let cancelVotes := insert participant self.cancelVotes
  if participant ∉ self.cancelVotes ∧ requiredThreshold ≤ cancelVotes.card then
    return ({ self with cancelVotes }, some (.new
      (self.domains.retainDomains self.generatedKeys.length)
      { epochId := self.epochId, domains := self.generatedKeys }
      self.generatingKey.parameters {}))
  else
    return ({ self with cancelVotes }, none)

end InitializingContractState

/-! ### Resharing -/

namespace ResharingContractState

def prospectiveEpochId (self : ResharingContractState) : EpochId := self.resharingKey.epochId

variable (self : ResharingContractState) (env : Env)

/-- A proposal made during resharing supersedes the resharing under the next epoch id. -/
def voteNewParameters (prospectiveEpochId : EpochId) (proposal : ThresholdParameters) :
    Outcome Error (ResharingContractState × Option ResharingContractState) := do
  let expectedProspectiveEpochId := EpochId.next self.prospectiveEpochId
  require (prospectiveEpochId = expectedProspectiveEpochId)
    (.epochMismatch prospectiveEpochId expectedProspectiveEpochId)
  let (previous, accepted) ← self.previousRunningState.processNewParametersProposal env proposal
  let self := { self with previousRunningState := previous }
  if accepted then
    let firstDomain ← unwrap (previous.domains.getDomainByIndex 0)
    return (self, some
      { previousRunningState := .new previous.domains previous.keyset
          previous.parameters previous.addDomainsVotes
        resharedKeys := []
        resharingKey := KeyEvent.new (EpochId.next self.prospectiveEpochId) firstDomain proposal
        cancellationRequests := ∅ })
  else
    return (self, none)

variable (keyEventId : KeyEventId)

def start (keyEventTimeoutBlocks : ℕ) : Outcome Error ResharingContractState := do
  let resharingKey ← self.resharingKey.start env keyEventId keyEventTimeoutBlocks
  return { self with resharingKey }

/-- Casts a vote that a key was reshared; when all agree, moves on to the next domain or to
running. -/
def voteReshared : Outcome Error (ResharingContractState × Option RunningContractState) := do
  let previousKey ← unwrap self.previousRunningState.keyset.domains[self.resharedKeys.length]?
  let (resharingKey, all) ← self.resharingKey.voteSuccess env keyEventId previousKey.key
  if all then
    let resharedKeys := self.resharedKeys ++ [{ domainId := keyEventId.domainId
                                                attempt := keyEventId.attemptId
                                                key := previousKey.key }]
    match self.previousRunningState.domains.getDomainByIndex resharedKeys.length with
    | some nextDomain =>
        return ({ self with
          resharedKeys
          resharingKey :=
            KeyEvent.new resharingKey.epochId nextDomain resharingKey.parameters }, none)
    | none =>
        return ({ self with resharedKeys, resharingKey }, some (.new
          self.previousRunningState.domains
          { epochId := resharingKey.epochId, domains := resharedKeys } resharingKey.parameters
          self.previousRunningState.addDomainsVotes))
  else
    return ({ self with resharingKey }, none)

def voteAbort : Outcome Error ResharingContractState := do
  let resharingKey ← self.resharingKey.voteAbort env keyEventId
  return { self with resharingKey }

/-- Casts a vote to return to the previous running state, which then remembers the epoch id that
was given up. -/
def voteCancelResharing : Outcome Error (ResharingContractState × Option RunningContractState) := do
  let candidate ← authenticatedAccountId env self.previousRunningState.parameters.participants
  let cancellationRequests := insert candidate self.cancellationRequests
  let self := { self with cancellationRequests }
  if self.previousRunningState.parameters.threshold ≤ cancellationRequests.card then
    return (self, some { self.previousRunningState with
      previouslyCancelledResharingEpochId := some self.prospectiveEpochId })
  else
    return (self, none)

end ResharingContractState

/-! ### Dispatch on the protocol state -/

namespace ProtocolContractState

/-- What a voting method returns: the changed state, and the state it transitions to, if any. -/
abbrev Transition := ProtocolContractState × Option ProtocolContractState

/-- The state the contract stores after a voting method. -/
def install (transition : Transition) : ProtocolContractState := transition.2.getD transition.1

variable (self : ProtocolContractState) (env : Env) (keyEventId : KeyEventId)
  (keyEventTimeoutBlocks : ℕ)

def startKeygenInstance : Outcome Error ProtocolContractState :=
  match self with
  | .initializing state => do
      return .initializing (← state.start env keyEventId keyEventTimeoutBlocks)
  | _ => .err .protocolStateNotInitializing

def startReshareInstance : Outcome Error ProtocolContractState :=
  match self with
  | .resharing state => do
      return .resharing (← state.start env keyEventId keyEventTimeoutBlocks)
  | _ => .err .protocolStateNotResharing

def voteReshared : Outcome Error Transition :=
  match self with
  | .resharing state => do
      let (state, next) ← state.voteReshared env keyEventId
      return (.resharing state, next.map .running)
  | _ => .err .protocolStateNotResharing

def voteCancelResharing : Outcome Error Transition :=
  match self with
  | .resharing state => do
      let (state, next) ← state.voteCancelResharing env
      return (.resharing state, next.map .running)
  | _ => .err .protocolStateNotResharing

def votePk (publicKey : PublicKeyExtended) : Outcome Error Transition :=
  match self with
  | .initializing state => do
      let (state, next) ← state.votePk env keyEventId publicKey
      return (.initializing state, next.map .running)
  | _ => .err .protocolStateNotInitializing

def voteNewParameters (prospectiveEpochId : EpochId) (proposedParameters : ThresholdParameters) :
    Outcome Error Transition :=
  match self with
  | .running state => do
      let (state, next) ← state.voteNewParameters env prospectiveEpochId proposedParameters
      return (.running state, next.map .resharing)
  | .resharing state => do
      let (state, next) ← state.voteNewParameters env prospectiveEpochId proposedParameters
      return (.resharing state, next.map .resharing)
  | _ => .err .protocolStateNotRunningNorResharing

def voteAddDomains (domains : List DomainConfig) : Outcome Error Transition :=
  match self with
  | .running state => do
      let (state, next) ← state.voteAddDomains env domains
      return (.running state, next.map .initializing)
  | _ => .err .protocolStateNotRunning

def voteAbortKeyEventInstance : Outcome Error ProtocolContractState :=
  match self with
  | .resharing state => do return .resharing (← state.voteAbort env keyEventId)
  | .initializing state => do return .initializing (← state.voteAbort env keyEventId)
  | _ => .err .protocolStateNotRunningNorResharing

def voteCancelKeygen (nextDomainId : ℕ) : Outcome Error Transition :=
  match self with
  | .initializing state => do
      let (state, next) ← state.voteCancel env nextDomainId
      return (.initializing state, next.map .running)
  | _ => .err .protocolStateNotInitializing

/-- The participants whose members may vote on updates. -/
def authenticateUpdateVote : Outcome Error Unit := do
  let participants ← match self with
    | .initializing state => .ok state.generatingKey.parameters.participants
    | .running state => .ok state.parameters.participants
    | .resharing state => .ok state.previousRunningState.parameters.participants
    | .notInitialized => .err .unexpectedProtocolState
  let _ ← authenticatedParticipantId env participants
  return ()

/-- The participants of the current phase; panics before initialization. -/
def activeParticipants (self : ProtocolContractState) : Outcome Error Participants :=
  match self with
  | .initializing state => .ok state.generatingKey.parameters.participants
  | .running state => .ok state.parameters.participants
  | .resharing state => .ok state.resharingKey.parameters.participants
  | .notInitialized => .panicked

end ProtocolContractState

end NearMpc.Contract
