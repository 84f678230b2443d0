import NearMpc.Contract.Calls

/-!
# What a call can do to the protocol state

`StateChange` lists, case by case, the state that a successful call leaves behind and the checks
that the call has passed, and `stateChange_perform` says that every successful call is one of these
cases. Invariants and histories of the protocol state are read off the cases, without looking at
the methods again.

Two kinds of change share a part. A running state reshares to a proposal because the last vote for
it was cast or because participants without a valid attestation are removed (`Agreed`). A key event
makes progress, in key generation and in resharing alike, when an attempt is started, voted for or
aborted (`KeyEvent.Progress`).
-/

set_option autoImplicit false

namespace NearMpc.Contract

open Library Library.Outcome RunningContractState

/-! ### Key events -/

/-- A key event before and after a call that does not complete it. -/
inductive KeyEvent.Progress (env : Env) (timeoutBlocks : ℕ) (before after : KeyEvent) : Prop where
  | started (keyEventId : KeyEventId)
      (hstart : before.start env keyEventId timeoutBlocks = .ok after)
  | voted (keyEventId : KeyEventId) (publicKey : PublicKeyExtended)
      (hvote : before.voteSuccess env keyEventId publicKey = .ok (after, false))
  | aborted (keyEventId : KeyEventId) (habort : before.voteAbort env keyEventId = .ok after)

namespace KeyEvent

variable {self after : KeyEvent} {env : Env} {keyEventId : KeyEventId} {timeoutBlocks : ℕ}

theorem parameters_of_start (hok : self.start env keyEventId timeoutBlocks = .ok after) :
    after.parameters = self.parameters := by
  simp only [start, bind_eq_ok, require_eq_ok, exists_const, pure_eq, ok.injEq] at hok
  obtain ⟨-, -, -, -, rfl⟩ := hok
  rfl

theorem parameters_of_voteSuccess {publicKey all}
    (hok : self.voteSuccess env keyEventId publicKey = .ok (after, all)) :
    after.parameters = self.parameters := by
  simp only [voteSuccess, bind_eq_ok, Prod.exists] at hok
  obtain ⟨_, _, hverify, _, -, _, result, -, hresult⟩ := hok
  obtain ⟨rfl, -⟩ := verifyVote_eq_ok hverify
  cases result <;>
    exact (congrArg KeyEvent.parameters (Prod.mk.inj (ok.inj hresult)).1).symm

section

variable (hprogress : Progress env timeoutBlocks self after)
include hprogress

theorem Progress.parameters : after.parameters = self.parameters := by
  cases hprogress with
  | started _ hstart => exact parameters_of_start hstart
  | voted _ _ hvote => exact parameters_of_voteSuccess hvote
  | aborted _ habort => rw [voteAbort_eq_ok habort]

theorem Progress.epochId : after.epochId = self.epochId := by
  cases hprogress with
  | started _ hstart => exact (start_eq_ok hstart).2.1
  | voted _ _ hvote => exact (voteSuccess_eq_ok hvote).1.epochId
  | aborted _ habort => rw [voteAbort_eq_ok habort]

theorem Progress.domain : after.domain = self.domain := by
  cases hprogress with
  | started _ hstart => exact (start_eq_ok hstart).2.2.1
  | voted _ _ hvote => exact (voteSuccess_eq_ok hvote).1.domain
  | aborted _ habort => rw [voteAbort_eq_ok habort]

end

end KeyEvent

/-! ### Proposals -/

/-- What a call that proposes parameters proposes: the argument of the vote, or the participants
whose attestations are still valid. -/
def Method.Proposes (method : Method) (current proposal : ThresholdParameters) : Prop :=
  match method with
  | .voteNewParameters _ voted => proposal = voted
  | .verifyTee =>
      proposal.threshold = current.threshold ∧
        proposal.participants.nextId = current.participants.nextId ∧
        proposal.participants.participants.Sublist current.participants.participants
  | _ => False

/-- Why a running state reshares to a proposal, and the state with the votes that this leaves. -/
inductive Agreed (call : Call) (running : RunningContractState) (proposal : ThresholdParameters) :
    RunningContractState → Prop where
  | voted {after : RunningContractState} (prospectiveEpochId : EpochId)
      (hmethod : call.method = .voteNewParameters prospectiveEpochId proposal)
      (hepoch : prospectiveEpochId = running.prospectiveEpochId)
      (hvote : running.processNewParametersProposal call.env proposal = .ok (after, true)) :
      Agreed call running proposal after
  | removed (hmethod : call.method = .verifyTee)
      (hproposes : call.method.Proposes running.parameters proposal)
      (hvalid : running.parameters.validateIncomingProposal proposal = .ok ()) :
      Agreed call running proposal running

theorem authenticatedAccountId_eq_ok {env participants candidate}
    (hok : authenticatedAccountId env participants = .ok candidate) :
    participants.isParticipantGivenAccountId env.signerAccountId = true ∧
      env.signerAccountId = candidate := by
  unfold authenticatedAccountId at hok
  split_ifs at hok with hparticipant
  exact ⟨hparticipant, ok.inj hok⟩

variable {running after : RunningContractState} {proposal : ThresholdParameters}

/-- Everything a vote for a proposal checks and changes. -/
theorem RunningContractState.processNewParametersProposal_cases {env accepted}
    (hok : running.processNewParametersProposal env proposal = .ok (after, accepted)) :
    running.parameters.validateIncomingProposal proposal = .ok () ∧
      proposal.participants.isParticipantGivenAccountId env.signerAccountId = true ∧
      (running.parameters.participants.isParticipantGivenAccountId env.signerAccountId = true ∨
        running.parameters.threshold ≤
          running.parametersVotes.nVotes proposal running.parameters.participants) ∧
      after = { running with
        parametersVotes := (running.parametersVotes.vote proposal env.signerAccountId).1 } ∧
      accepted = decide (proposal.participants.len =
        (running.parametersVotes.vote proposal env.signerAccountId).2) := by
  simp only [processNewParametersProposal, bind_eq_ok, require_eq_ok, exists_const, pure_eq,
    ok.injEq, Prod.mk.injEq] at hok
  obtain ⟨⟨⟩, hvalid, _, hcandidate, hadmitted, rfl, rfl⟩ := hok
  obtain ⟨hproposed, rfl⟩ := authenticatedAccountId_eq_ok hcandidate
  exact ⟨hvalid, hproposed, hadmitted, rfl, rfl⟩

/-- The proposal that is agreed on is admissible, and only the votes for parameters change. -/
theorem Agreed.validated {call} (hagreed : Agreed call running proposal after) :
    call.method.Proposes running.parameters proposal ∧
      running.parameters.validateIncomingProposal proposal = .ok () ∧
      ∃ parametersVotes, after = { running with parametersVotes } := by
  cases hagreed with
  | voted _ hmethod _ hvote =>
    obtain ⟨hvalid, -, -, hafter, -⟩ := processNewParametersProposal_cases hvote
    exact ⟨by rw [hmethod]; rfl, hvalid, _, hafter⟩
  | removed _ hproposes hvalid => exact ⟨hproposes, hvalid, running.parametersVotes, rfl⟩

/-! ### Changes of the protocol state -/

/-- The vote for these domains is the last one that was missing. -/
def RunningContractState.addDomainsVoteCompletes (self : RunningContractState) (env : Env)
    (domains : List DomainConfig) : Bool :=
  match authenticatedParticipantId env self.parameters.participants with
  | .ok participant =>
      self.parameters.participants.len == (self.addDomainsVotes.vote domains participant).2
  | _ => false

/-- What a successful call does to the protocol state. -/
inductive StateChange (call : Call) (timeoutBlocks : ℕ) :
    ProtocolContractState → ProtocolContractState → Prop where
  | unchanged (state : ProtocolContractState) : StateChange call timeoutBlocks state state
  -- from running
  | migrated {running : RunningContractState} (parameters : ThresholdParameters)
      (accountId : AccountId) (info : ParticipantInfo)
      (hupdated : running.parameters.updateInfo accountId info = .ok parameters) :
      StateChange call timeoutBlocks (.running running) (.running { running with parameters })
  | votedParameters {running after : RunningContractState} (prospectiveEpochId : EpochId)
      (proposal : ThresholdParameters)
      (hmethod : call.method = .voteNewParameters prospectiveEpochId proposal)
      (hepoch : prospectiveEpochId = running.prospectiveEpochId)
      (hvote : running.processNewParametersProposal call.env proposal = .ok (after, false)) :
      StateChange call timeoutBlocks (.running running) (.running after)
  | reshare {running after : RunningContractState} (proposal : ThresholdParameters)
      (firstDomain : DomainConfig) (hagreed : Agreed call running proposal after)
      (hfirst : running.domains.getDomainByIndex 0 = some firstDomain) :
      StateChange call timeoutBlocks (.running running) (.resharing
        { previousRunningState := new after.domains after.keyset
            after.parameters after.addDomainsVotes
          resharedKeys := []
          resharingKey := KeyEvent.new running.prospectiveEpochId firstDomain proposal
          cancellationRequests := ∅ })
  | adopt {running after : RunningContractState} (proposal : ThresholdParameters)
      (hagreed : Agreed call running proposal after)
      (hnone : running.domains.getDomainByIndex 0 = none) :
      StateChange call timeoutBlocks (.running running) (.running (new
        after.domains { epochId := EpochId.next after.keyset.epochId, domains := [] } proposal
        after.addDomainsVotes))
  | votedDomains {running : RunningContractState} (domains : List DomainConfig)
      (participant : ParticipantId) (hmethod : call.method = .voteAddDomains domains)
      (hparticipant : authenticatedParticipantId call.env running.parameters.participants =
        .ok participant) :
      StateChange call timeoutBlocks (.running running) (.running { running with
        addDomainsVotes := (running.addDomainsVotes.vote domains participant).1 })
  | addDomains {running : RunningContractState} (domains : List DomainConfig)
      (newDomains : DomainRegistry) (firstDomain : DomainConfig)
      (hmethod : call.method = .voteAddDomains domains)
      (hcompletes : running.addDomainsVoteCompletes call.env domains)
      (hadd : running.domains.addDomains domains = .ok newDomains)
      (hfirst : domains.head? = some firstDomain) :
      StateChange call timeoutBlocks (.running running) (.initializing
        { generatedKeys := running.keyset.domains
          domains := newDomains
          epochId := running.keyset.epochId
          generatingKey := KeyEvent.new running.keyset.epochId firstDomain running.parameters
          cancelVotes := ∅ })
  -- from initializing
  | keygenProgress {state : InitializingContractState} (generatingKey : KeyEvent)
      (hprogress : KeyEvent.Progress call.env timeoutBlocks state.generatingKey generatingKey) :
      StateChange call timeoutBlocks (.initializing state)
        (.initializing { state with generatingKey })
  | generatedKey {state : InitializingContractState} (generatingKey : KeyEvent)
      (keyEventId : KeyEventId) (publicKey : PublicKeyExtended) (nextDomain : DomainConfig)
      (hvote : state.generatingKey.voteSuccess call.env keyEventId publicKey =
        .ok (generatingKey, true))
      (hnext : state.domains.getDomainByIndex (state.generatedKeys.length + 1) =
        some nextDomain) :
      StateChange call timeoutBlocks (.initializing state) (.initializing { state with
        generatedKeys := state.generatedKeys ++
          [{ domainId := keyEventId.domainId, key := publicKey, attempt := keyEventId.attemptId }]
        generatingKey := KeyEvent.new state.epochId nextDomain generatingKey.parameters })
  | generatedAllKeys {state : InitializingContractState} (generatingKey : KeyEvent)
      (keyEventId : KeyEventId) (publicKey : PublicKeyExtended)
      (hvote : state.generatingKey.voteSuccess call.env keyEventId publicKey =
        .ok (generatingKey, true))
      (hnone : state.domains.getDomainByIndex (state.generatedKeys.length + 1) = none) :
      StateChange call timeoutBlocks (.initializing state) (.running (new
        state.domains
        { epochId := state.epochId
          domains := state.generatedKeys ++ [{ domainId := keyEventId.domainId, key := publicKey,
                                               attempt := keyEventId.attemptId }] }
        generatingKey.parameters {}))
  | votedCancelKeygen {state : InitializingContractState} (cancelVotes : Finset ParticipantId) :
      StateChange call timeoutBlocks (.initializing state)
        (.initializing { state with cancelVotes })
  | cancelKeygen {state : InitializingContractState} :
      StateChange call timeoutBlocks (.initializing state) (.running (new
        (state.domains.retainDomains state.generatedKeys.length)
        { epochId := state.epochId, domains := state.generatedKeys }
        state.generatingKey.parameters {}))
  -- from resharing
  | reshareProgress {state : ResharingContractState} (resharingKey : KeyEvent)
      (hprogress : KeyEvent.Progress call.env timeoutBlocks state.resharingKey resharingKey) :
      StateChange call timeoutBlocks (.resharing state) (.resharing { state with resharingKey })
  | resharedKey {state : ResharingContractState} (resharingKey : KeyEvent)
      (keyEventId : KeyEventId) (previousKey : KeyForDomain) (nextDomain : DomainConfig)
      (hprev :
        state.previousRunningState.keyset.domains[state.resharedKeys.length]? = some previousKey)
      (hvote : state.resharingKey.voteSuccess call.env keyEventId previousKey.key =
        .ok (resharingKey, true))
      (hnext : state.previousRunningState.domains.getDomainByIndex
        (state.resharedKeys.length + 1) = some nextDomain) :
      StateChange call timeoutBlocks (.resharing state) (.resharing { state with
        resharedKeys := state.resharedKeys ++ [{ domainId := keyEventId.domainId
                                                 attempt := keyEventId.attemptId
                                                 key := previousKey.key }]
        resharingKey := KeyEvent.new resharingKey.epochId nextDomain resharingKey.parameters })
  | resharedAllKeys {state : ResharingContractState} (resharingKey : KeyEvent)
      (keyEventId : KeyEventId) (previousKey : KeyForDomain)
      (hprev :
        state.previousRunningState.keyset.domains[state.resharedKeys.length]? = some previousKey)
      (hvote : state.resharingKey.voteSuccess call.env keyEventId previousKey.key =
        .ok (resharingKey, true))
      (hnone : state.previousRunningState.domains.getDomainByIndex
        (state.resharedKeys.length + 1) = none) :
      StateChange call timeoutBlocks (.resharing state) (.running (new
        state.previousRunningState.domains
        { epochId := resharingKey.epochId
          domains := state.resharedKeys ++ [{ domainId := keyEventId.domainId
                                              attempt := keyEventId.attemptId
                                              key := previousKey.key }] }
        resharingKey.parameters state.previousRunningState.addDomainsVotes))
  | votedCancelResharing {state : ResharingContractState}
      (hmethod : call.method = .voteCancelResharing) :
      StateChange call timeoutBlocks (.resharing state) (.resharing { state with
        cancellationRequests := insert call.env.signerAccountId state.cancellationRequests })
  | cancelResharing {state : ResharingContractState}
      (hmethod : call.method = .voteCancelResharing) :
      StateChange call timeoutBlocks (.resharing state) (.running { state.previousRunningState with
        previouslyCancelledResharingEpochId := some state.prospectiveEpochId })
  | votedReproposal {state : ResharingContractState} (previous : RunningContractState)
      (prospectiveEpochId : EpochId) (proposal : ThresholdParameters)
      (hmethod : call.method = .voteNewParameters prospectiveEpochId proposal)
      (hepoch : prospectiveEpochId = EpochId.next state.prospectiveEpochId)
      (hvote : state.previousRunningState.processNewParametersProposal call.env proposal =
        .ok (previous, false)) :
      StateChange call timeoutBlocks (.resharing state)
        (.resharing { state with previousRunningState := previous })
  | supersede {state : ResharingContractState} (previous : RunningContractState)
      (prospectiveEpochId : EpochId) (proposal : ThresholdParameters) (firstDomain : DomainConfig)
      (hmethod : call.method = .voteNewParameters prospectiveEpochId proposal)
      (hepoch : prospectiveEpochId = EpochId.next state.prospectiveEpochId)
      (hvote : state.previousRunningState.processNewParametersProposal call.env proposal =
        .ok (previous, true))
      (hfirst : previous.domains.getDomainByIndex 0 = some firstDomain) :
      StateChange call timeoutBlocks (.resharing state) (.resharing
        { previousRunningState := new previous.domains previous.keyset
            previous.parameters previous.addDomainsVotes
          resharedKeys := []
          resharingKey := KeyEvent.new (EpochId.next state.prospectiveEpochId) firstDomain proposal
          cancellationRequests := ∅ })

namespace ProtocolContractState

variable {self : ProtocolContractState} {call : Call} {timeoutBlocks : ℕ} {transition : Transition}
  {keyEventId : KeyEventId}

/-! ### Votes for parameters -/

/-- A proposal that is agreed on is reshared to, or put in force at once if there is no key. -/
theorem stateChange_transitionToResharing (hagreed : Agreed call running proposal after) :
    StateChange call timeoutBlocks (.running running)
      (install (.running (after.transitionToResharingNoChecks proposal).1,
        (after.transitionToResharingNoChecks proposal).2.map .resharing)) := by
  obtain ⟨_, hafter⟩ := hagreed.validated.2.2
  have hdomains : after.domains = running.domains := by rw [hafter]
  have hepoch : after.prospectiveEpochId = running.prospectiveEpochId := by
    rw [hafter]
    rfl
  unfold transitionToResharingNoChecks
  cases hfirst : after.domains.getDomainByIndex 0 with
  | some firstDomain =>
    have hchange : StateChange call timeoutBlocks (.running running) _ :=
      .reshare proposal firstDomain hagreed (hdomains ▸ hfirst)
    rw [← hepoch] at hchange
    exact hchange
  | none => exact .adopt proposal hagreed (hdomains ▸ hfirst)

theorem stateChange_voteNewParameters {prospectiveEpochId}
    (hmethod : call.method = .voteNewParameters prospectiveEpochId proposal)
    (hok : self.voteNewParameters call.env prospectiveEpochId proposal = .ok transition) :
    StateChange call timeoutBlocks self (install transition) := by
  cases self with
  | running =>
    obtain ⟨⟨_, _⟩, hvote, hdone⟩ := bind_eq_ok.mp hok
    cases hdone
    simp only [RunningContractState.voteNewParameters, bind_eq_ok, require_eq_ok, exists_const,
      Prod.exists] at hvote
    obtain ⟨hepoch, voted, accepted, hvote, hresult⟩ := hvote
    cases accepted with
    | true =>
      have hchange : StateChange call timeoutBlocks _ _ :=
        stateChange_transitionToResharing (Agreed.voted prospectiveEpochId hmethod hepoch hvote)
      rwa [show voted.transitionToResharingNoChecks proposal = _ from ok.inj hresult] at hchange
    | false =>
      cases hresult
      exact .votedParameters prospectiveEpochId proposal hmethod hepoch hvote
  | resharing =>
    obtain ⟨⟨_, _⟩, hvote, hdone⟩ := bind_eq_ok.mp hok
    cases hdone
    simp only [ResharingContractState.voteNewParameters, bind_eq_ok, require_eq_ok, exists_const,
      Prod.exists] at hvote
    obtain ⟨hepoch, previous, accepted, hvote, hresult⟩ := hvote
    cases accepted with
    | true =>
      simp only [if_true, bind_eq_ok, unwrap_eq_ok, pure_eq, ok.injEq, Prod.mk.injEq] at hresult
      obtain ⟨firstDomain, hfirst, -, rfl⟩ := hresult
      exact .supersede previous prospectiveEpochId proposal firstDomain hmethod hepoch hvote hfirst
    | false =>
      cases hresult
      exact .votedReproposal previous prospectiveEpochId proposal hmethod hepoch hvote
  | _ => cases hok

theorem stateChange_voteAddDomains {domains} (hmethod : call.method = .voteAddDomains domains)
    (hok : self.voteAddDomains call.env domains = .ok transition) :
    StateChange call timeoutBlocks self (install transition) := by
  cases self with
  | running running =>
    obtain ⟨⟨_, _⟩, hvote, hdone⟩ := bind_eq_ok.mp hok
    cases hdone
    simp only [RunningContractState.voteAddDomains, bind_eq_ok, require_eq_ok,
      exists_const] at hvote
    obtain ⟨-, _, -, participant, hparticipant, hresult⟩ := hvote
    split_ifs at hresult with hcompletes
    · simp only [bind_eq_ok, unwrap_eq_ok, pure_eq, ok.injEq, Prod.mk.injEq] at hresult
      obtain ⟨newDomains, hadd, firstDomain, hfirst, -, rfl⟩ := hresult
      have hlast : running.addDomainsVoteCompletes call.env domains := by
        simp [addDomainsVoteCompletes, hparticipant, hcompletes]
      exact .addDomains domains newDomains firstDomain hmethod hlast hadd hfirst
    · cases hresult
      exact .votedDomains domains participant hmethod hparticipant
  | _ => cases hok

/-! ### Votes on key events -/

section KeyEvents

variable {after : ProtocolContractState}

theorem stateChange_startKeygenInstance
    (hok : self.startKeygenInstance call.env keyEventId timeoutBlocks = .ok after) :
    StateChange call timeoutBlocks self after := by
  cases self with
  | initializing =>
    simp only [startKeygenInstance, InitializingContractState.start, bind_eq_ok, pure_eq,
      ok.injEq] at hok
    obtain ⟨_, ⟨generatingKey, hstart, rfl⟩, rfl⟩ := hok
    exact .keygenProgress generatingKey (.started keyEventId hstart)
  | _ => cases hok

theorem stateChange_startReshareInstance
    (hok : self.startReshareInstance call.env keyEventId timeoutBlocks = .ok after) :
    StateChange call timeoutBlocks self after := by
  cases self with
  | resharing =>
    simp only [startReshareInstance, ResharingContractState.start, bind_eq_ok, pure_eq,
      ok.injEq] at hok
    obtain ⟨_, ⟨resharingKey, hstart, rfl⟩, rfl⟩ := hok
    exact .reshareProgress resharingKey (.started keyEventId hstart)
  | _ => cases hok

theorem stateChange_voteAbortKeyEventInstance
    (hok : self.voteAbortKeyEventInstance call.env keyEventId = .ok after) :
    StateChange call timeoutBlocks self after := by
  cases self with
  | resharing =>
    simp only [voteAbortKeyEventInstance, ResharingContractState.voteAbort, bind_eq_ok, pure_eq,
      ok.injEq] at hok
    obtain ⟨_, ⟨resharingKey, habort, rfl⟩, rfl⟩ := hok
    exact .reshareProgress resharingKey (.aborted keyEventId habort)
  | initializing =>
    simp only [voteAbortKeyEventInstance, InitializingContractState.voteAbort, bind_eq_ok, pure_eq,
      ok.injEq] at hok
    obtain ⟨_, ⟨generatingKey, habort, rfl⟩, rfl⟩ := hok
    exact .keygenProgress generatingKey (.aborted keyEventId habort)
  | _ => cases hok

end KeyEvents

theorem stateChange_votePk {publicKey}
    (hok : self.votePk call.env keyEventId publicKey = .ok transition) :
    StateChange call timeoutBlocks self (install transition) := by
  cases self with
  | initializing =>
    obtain ⟨⟨_, next⟩, hvote, hdone⟩ := bind_eq_ok.mp hok
    cases hdone
    simp only [InitializingContractState.votePk, bind_eq_ok, Prod.exists] at hvote
    obtain ⟨generatingKey, all, hvote, hresult⟩ := hvote
    cases all with
    | false =>
      cases hresult
      exact .keygenProgress generatingKey (.voted keyEventId publicKey hvote)
    | true =>
      simp only [if_true, List.length_append, List.length_singleton] at hresult
      split at hresult
      next nextDomain hnext =>
        cases hresult
        exact .generatedKey generatingKey keyEventId publicKey nextDomain hvote hnext
      next hnone =>
        cases hresult
        exact .generatedAllKeys generatingKey keyEventId publicKey hvote hnone
  | _ => cases hok

theorem stateChange_voteReshared (hok : self.voteReshared call.env keyEventId = .ok transition) :
    StateChange call timeoutBlocks self (install transition) := by
  cases self with
  | resharing =>
    obtain ⟨⟨_, next⟩, hvote, hdone⟩ := bind_eq_ok.mp hok
    cases hdone
    simp only [ResharingContractState.voteReshared, bind_eq_ok, unwrap_eq_ok, Prod.exists] at hvote
    obtain ⟨previousKey, hprev, resharingKey, all, hvote, hresult⟩ := hvote
    cases all with
    | false =>
      cases hresult
      exact .reshareProgress resharingKey (.voted keyEventId previousKey.key hvote)
    | true =>
      simp only [if_true, List.length_append, List.length_singleton] at hresult
      split at hresult
      next nextDomain hnext =>
        cases hresult
        exact .resharedKey resharingKey keyEventId previousKey nextDomain hprev hvote hnext
      next hnone =>
        cases hresult
        exact .resharedAllKeys resharingKey keyEventId previousKey hprev hvote hnone
  | _ => cases hok

/-! ### Votes to cancel -/

theorem stateChange_voteCancelKeygen {nextDomainId}
    (hok : self.voteCancelKeygen call.env nextDomainId = .ok transition) :
    StateChange call timeoutBlocks self (install transition) := by
  cases self with
  | initializing =>
    obtain ⟨⟨_, _⟩, hvote, hdone⟩ := bind_eq_ok.mp hok
    cases hdone
    simp only [InitializingContractState.voteCancel, bind_eq_ok, require_eq_ok,
      exists_const] at hvote
    obtain ⟨-, _, -, hresult⟩ := hvote
    split_ifs at hresult
    · cases hresult
      exact .cancelKeygen
    · cases hresult
      exact .votedCancelKeygen _
  | _ => cases hok

theorem stateChange_voteCancelResharing (hmethod : call.method = .voteCancelResharing)
    (hok : self.voteCancelResharing call.env = .ok transition) :
    StateChange call timeoutBlocks self (install transition) := by
  cases self with
  | resharing =>
    obtain ⟨⟨_, _⟩, hvote, hdone⟩ := bind_eq_ok.mp hok
    cases hdone
    simp only [ResharingContractState.voteCancelResharing, bind_eq_ok] at hvote
    obtain ⟨_, hcandidate, hresult⟩ := hvote
    obtain ⟨-, rfl⟩ := authenticatedAccountId_eq_ok hcandidate
    split_ifs at hresult
    · cases hresult
      exact .cancelResharing hmethod
    · cases hresult
      exact .votedCancelResharing hmethod
  | _ => cases hok

end ProtocolContractState

/-! ### Calls -/

theorem TeeView.sublist_of_reverifyAndCleanupParticipants {tee : TeeView}
    {participants valid : Participants}
    (hremaining : tee.reverifyAndCleanupParticipants participants = .partially valid) :
    valid.nextId = participants.nextId ∧ valid.participants.Sublist participants.participants := by
  simp only [reverifyAndCleanupParticipants] at hremaining
  split_ifs at hremaining
  cases hremaining
  exact ⟨rfl, List.filter_sublist⟩

namespace MpcContract

open ProtocolContractState

section Step

variable {contract next : MpcContract} {call : Call} {timeoutBlocks : ℕ}

theorem stateChange_verifyTee {accepted : Bool} (hmethod : call.method = .verifyTee)
    (hok : contract.verifyTee call.env call.tee = .ok (next, accepted)) :
    StateChange call timeoutBlocks contract.protocolState next.protocolState := by
  simp only [verifyTee, bind_eq_ok] at hok
  obtain ⟨_, -, hok⟩ := hok
  split at hok
  next state hstate =>
    split at hok
    · cases hok
      exact .unchanged _
    · next valid hremaining =>
      split_ifs at hok
      · cases hok
        exact .unchanged _
      · split at hok
        next parameters hnew =>
          simp only [bind_eq_ok] at hok
          obtain ⟨⟨⟩, hvalid, hok⟩ := hok
          cases hok
          simp only [ThresholdParameters.new, bind_eq_ok, pure_eq, ok.injEq] at hnew
          obtain ⟨-, -, rfl⟩ := hnew
          rw [hstate]
          refine stateChange_transitionToResharing (Agreed.removed hmethod ?_ hvalid)
          rw [hmethod]
          exact ⟨rfl, TeeView.sublist_of_reverifyAndCleanupParticipants hremaining⟩
        next => simp at hok
  next => simp at hok

theorem stateChange_concludeNodeMigration {keyset}
    (hok : contract.concludeNodeMigration call.env call.tee keyset = .ok next) :
    StateChange call timeoutBlocks contract.protocolState next.protocolState := by
  simp only [concludeNodeMigration, bind_eq_ok] at hok
  obtain ⟨_, -, hok⟩ := hok
  split at hok
  next state hstate =>
    simp only [bind_eq_ok, require_eq_ok, exists_const, pure_eq, ok.injEq] at hok
    obtain ⟨-, -, _, -, -, -, updated, hupdated, rfl⟩ := hok
    rw [hstate]
    exact .migrated updated _ _ hupdated
  next => simp at hok

theorem startNodeMigration_protocolState {destination}
    (hok : contract.startNodeMigration call.env destination = .ok next) :
    next.protocolState = contract.protocolState := by
  simp only [startNodeMigration, bind_eq_ok] at hok
  obtain ⟨_, -, hok⟩ := hok
  split at hok
  · simp only [bind_eq_ok, require_eq_ok, exists_const, pure_eq, ok.injEq] at hok
    obtain ⟨-, rfl⟩ := hok
    rfl
  · simp at hok

end Step

/-- A fresh deployment is running, with valid parameters and a key for each domain in order. -/
theorem deployed_cases {contract} (hdeployed : Deployed contract) :
    ∃ domains keyset parameters,
      contract.protocolState = .running (new domains keyset parameters {}) ∧
      parameters.validate = .ok () ∧ domains.Ordered ∧
      keyset.domains.map (fun key ↦ key.domainId) =
        domains.domains.map fun domain ↦ domain.id := by
  rcases hdeployed with ⟨parameters, timeout, hinit⟩ |
    ⟨domains, nextDomainId, keyset, parameters, timeout, hinit⟩
  · simp only [init, bind_eq_ok, pure_eq, ok.injEq] at hinit
    obtain ⟨⟨⟩, hvalid, rfl⟩ := hinit
    exact ⟨_, _, parameters, rfl, hvalid, DomainRegistry.ordered_default, rfl⟩
  · simp only [initRunning, bind_eq_ok, require_eq_ok, exists_const, pure_eq, ok.injEq] at hinit
    obtain ⟨⟨⟩, hvalid, registry, hregistry, hids, rfl⟩ := hinit
    exact ⟨registry, keyset, parameters, rfl, hvalid,
      (DomainRegistry.fromRawValidated_eq_ok hregistry).2, hids.symm⟩

/-- Every successful call changes the protocol state in one of these ways. -/
theorem stateChange_perform {contract next : MpcContract} {call : Call}
    (hok : contract.perform call = .ok next) :
    StateChange call contract.keyEventTimeoutBlocks contract.protocolState next.protocolState := by
  unfold perform at hok
  cases hmethod : call.method with
  | voteNewParameters =>
    simp only [hmethod, voteNewParameters] at hok
    split at hok
    · obtain ⟨_, hvote, hdone⟩ := bind_eq_ok.mp hok
      cases hdone
      exact stateChange_voteNewParameters hmethod hvote
    · cases hok
  | voteAddDomains =>
    simp only [hmethod, voteAddDomains, bind_eq_ok, pure_eq, ok.injEq] at hok
    obtain ⟨_, hvote, rfl⟩ := hok
    exact stateChange_voteAddDomains hmethod hvote
  | startKeygenInstance =>
    simp only [hmethod, startKeygenInstance, bind_eq_ok, pure_eq, ok.injEq] at hok
    obtain ⟨_, -, _, hstart, rfl⟩ := hok
    exact stateChange_startKeygenInstance hstart
  | votePk =>
    simp only [hmethod, votePk, bind_eq_ok, pure_eq, ok.injEq] at hok
    obtain ⟨_, -, _, -, _, hvote, rfl⟩ := hok
    exact stateChange_votePk hvote
  | startReshareInstance =>
    simp only [hmethod, startReshareInstance, bind_eq_ok, pure_eq, ok.injEq] at hok
    obtain ⟨_, -, _, hstart, rfl⟩ := hok
    exact stateChange_startReshareInstance hstart
  | voteReshared =>
    simp only [hmethod, voteReshared, bind_eq_ok, pure_eq, ok.injEq] at hok
    obtain ⟨_, -, _, hvote, rfl⟩ := hok
    exact stateChange_voteReshared hvote
  | voteCancelResharing =>
    simp only [hmethod, voteCancelResharing, bind_eq_ok, pure_eq, ok.injEq] at hok
    obtain ⟨_, hvote, rfl⟩ := hok
    exact stateChange_voteCancelResharing hmethod hvote
  | voteCancelKeygen =>
    simp only [hmethod, voteCancelKeygen, bind_eq_ok, pure_eq, ok.injEq] at hok
    obtain ⟨_, hvote, rfl⟩ := hok
    exact stateChange_voteCancelKeygen hvote
  | voteAbortKeyEventInstance =>
    simp only [hmethod, voteAbortKeyEventInstance, bind_eq_ok, pure_eq, ok.injEq] at hok
    obtain ⟨_, -, _, hvote, rfl⟩ := hok
    exact stateChange_voteAbortKeyEventInstance hvote
  | verifyTee =>
    simp only [hmethod, bind_eq_ok, pure_eq, ok.injEq] at hok
    obtain ⟨⟨_, _⟩, hverify, rfl⟩ := hok
    exact stateChange_verifyTee hmethod hverify
  | startNodeMigration =>
    rw [hmethod] at hok
    rw [startNodeMigration_protocolState hok]
    exact .unchanged _
  | concludeNodeMigration =>
    rw [hmethod] at hok
    exact stateChange_concludeNodeMigration hok

/-- A transaction leaves the state alone or changes it in one of these ways. -/
theorem stateChange_apply (contract : MpcContract) (call : Call) :
    StateChange call contract.keyEventTimeoutBlocks contract.protocolState
      (contract.apply call).protocolState := by
  rcases contract.apply_cases call with hsame | hok
  · rw [hsame]
    exact .unchanged _
  · exact stateChange_perform hok

end MpcContract

end NearMpc.Contract
