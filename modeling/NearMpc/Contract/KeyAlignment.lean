import NearMpc.Contract.ParameterValidity

/-!
# Registry, keys and key event of a state

The registry lists the domains, the keyset their keys, and a key event the domain whose key is being
generated or reshared. Nothing but the lengths of the lists ties them together: the contract takes
the domain after the last key to be the one at work, and the key to reshare to be the one at the
same index. `Aligned` is the invariant behind it:

- domain ids increase strictly and stay below `next_domain_id`;
- the keys of a running state are those of its domains, in order;
- the keys generated or reshared so far are those of the first domains, and the key event is about
  the next one.

Aligned states with valid parameters never hit an `unwrap` or an index out of bounds in a
transition (`PanicFree`).

Every call keeps the states aligned but one: `next_domain_id` is advanced by an unchecked addition,
and after the last id it starts again at zero. `DomainIdsRemain` excludes that step.
-/

set_option autoImplicit false

namespace NearMpc.Contract

open Library Library.Outcome RunningContractState ProtocolContractState

/-! ### Keys of the first domains -/

/-- The keys are those of the first domains of the registry, in order. -/
def KeysOfFirst (keys : List KeyForDomain) (registry : DomainRegistry) : Prop :=
  keys.map (fun key ↦ key.domainId) <+: registry.domains.map fun domain ↦ domain.id

namespace KeysOfFirst

variable {keys : List KeyForDomain} {registry : DomainRegistry}

theorem nil (registry : DomainRegistry) : KeysOfFirst [] registry := List.nil_prefix

/-- A key of the next domain extends the keys of the first ones. -/
theorem snoc (hkeys : KeysOfFirst keys registry) {domain key}
    (hdomain : registry.getDomainByIndex keys.length = some domain)
    (hkey : key.domainId = domain.id) : KeysOfFirst (keys ++ [key]) registry := by
  unfold KeysOfFirst at hkeys ⊢
  rw [List.prefix_iff_eq_take, List.length_map] at hkeys
  rw [List.prefix_iff_eq_take, List.map_append, hkeys]
  have hid : (registry.domains.map fun domain ↦ domain.id)[keys.length]? = some key.domainId := by
    rw [List.getElem?_map, hkey]
    exact congrArg (Option.map fun domain ↦ domain.id) hdomain
  have hlength := (List.getElem?_eq_some_iff.mp hid).1
  have htake : (registry.domains.map fun domain ↦ domain.id).take (keys.length + 1) =
      (registry.domains.map fun domain ↦ domain.id).take keys.length ++ [key.domainId] := by
    rw [List.take_add_one, hid]
    rfl
  rw [List.map_singleton, List.length_append, List.length_singleton, List.length_take_of_le
    (by omega), htake]

/-- As many keys as domains are the keys of all domains. -/
theorem eq_of_length (hkeys : KeysOfFirst keys registry)
    (hlength : keys.length = registry.domains.length) :
    keys.map (fun key ↦ key.domainId) = registry.domains.map fun domain ↦ domain.id :=
  List.IsPrefix.eq_of_length hkeys (by simpa using hlength)

/-- Dropping the domains without a key leaves the keys of all domains. -/
theorem retainDomains (hkeys : KeysOfFirst keys registry) :
    keys.map (fun key ↦ key.domainId) =
      (registry.retainDomains keys.length).domains.map fun domain ↦ domain.id := by
  unfold KeysOfFirst at hkeys
  rw [List.prefix_iff_eq_take, List.length_map] at hkeys
  rw [hkeys, DomainRegistry.retainDomains, List.map_take]

end KeysOfFirst

/-! ### Aligned states -/

structure RunningContractState.Aligned (running : RunningContractState) : Prop where
  ordered : running.domains.Ordered
  keys : running.keyset.domains.map (fun key ↦ key.domainId) =
    running.domains.domains.map fun domain ↦ domain.id

structure InitializingContractState.Aligned (state : InitializingContractState) : Prop where
  ordered : state.domains.Ordered
  keys : KeysOfFirst state.generatedKeys state.domains
  strict : state.generatedKeys.length < state.domains.domains.length
  current : state.domains.getDomainByIndex state.generatedKeys.length =
    some state.generatingKey.domain

structure ResharingContractState.Aligned (state : ResharingContractState) : Prop where
  previous : state.previousRunningState.Aligned
  keys : KeysOfFirst state.resharedKeys state.previousRunningState.domains
  strict : state.resharedKeys.length < state.previousRunningState.domains.domains.length
  current : state.previousRunningState.domains.getDomainByIndex state.resharedKeys.length =
    some state.resharingKey.domain

def ProtocolContractState.Aligned : ProtocolContractState → Prop
  | .notInitialized => True
  | .initializing state => state.Aligned
  | .running state => state.Aligned
  | .resharing state => state.Aligned

theorem DomainRegistry.lt_length_of_getDomainByIndex {registry : DomainRegistry} {index : ℕ}
    {domain : DomainConfig} (hdomain : registry.getDomainByIndex index = some domain) :
    index < registry.domains.length := (List.getElem?_eq_some_iff.mp hdomain).1

theorem RunningContractState.Aligned.length_keys {running : RunningContractState}
    (haligned : running.Aligned) :
    running.keyset.domains.length = running.domains.domains.length := by
  simpa using congrArg List.length haligned.keys

/-! ### Steps -/

namespace ProtocolContractState

variable {votes : AddDomainsVotes}

section Running

variable {running : RunningContractState} {proposal : ThresholdParameters}

theorem aligned_reshare {firstDomain epochId} (haligned : running.Aligned)
    (hfirst : running.domains.getDomainByIndex 0 = some firstDomain) :
    Aligned (.resharing
      { previousRunningState := new running.domains running.keyset
          running.parameters votes
        resharedKeys := []
        resharingKey := .new epochId firstDomain proposal
        cancellationRequests := ∅ }) where
  previous := ⟨haligned.ordered, haligned.keys⟩
  keys := KeysOfFirst.nil _
  strict := DomainRegistry.lt_length_of_getDomainByIndex hfirst
  current := hfirst

theorem aligned_adopt {epochId} (haligned : running.Aligned)
    (hnone : running.domains.getDomainByIndex 0 = none) :
    Aligned (.running (new running.domains
      { epochId, domains := [] } proposal votes)) where
  ordered := haligned.ordered
  keys := by
    have hempty : running.domains.domains = [] := by
      simpa [DomainRegistry.getDomainByIndex] using hnone
    simp [new, hempty]

/-- The new domains come after those with keys, and the first of them is at work. -/
theorem aligned_addDomains {domains newDomains firstDomain} (haligned : running.Aligned)
    (hadd : running.domains.addDomains domains = .ok newDomains)
    (hfirst : domains.head? = some firstDomain)
    (hlimit : running.domains.nextDomainId + domains.length < counterLimit) :
    Aligned (.initializing
      { generatedKeys := running.keyset.domains
        domains := newDomains
        epochId := running.keyset.epochId
        generatingKey := .new running.keyset.epochId firstDomain running.parameters
        cancelVotes := ∅ }) := by
  obtain ⟨hordered, hdomains, -⟩ := DomainRegistry.addDomains_eq_ok hadd haligned.ordered hlimit
  have hcurrent : newDomains.getDomainByIndex running.keyset.domains.length =
      some firstDomain := by
    rw [DomainRegistry.getDomainByIndex, hdomains, haligned.length_keys,
      List.getElem?_append_right le_rfl, Nat.sub_self, ← List.head?_eq_getElem?]
    exact hfirst
  refine ⟨hordered, ?_, DomainRegistry.lt_length_of_getDomainByIndex hcurrent, hcurrent⟩
  change running.keyset.domains.map _ <+: newDomains.domains.map _
  rw [hdomains, haligned.keys, List.map_append]
  exact List.prefix_append _ _

end Running

section Initializing

variable {state : InitializingContractState}

section

variable {key : KeyForDomain} {parameters : ThresholdParameters} (haligned : state.Aligned)
  (hkey : key.domainId = state.generatingKey.domain.id)
include haligned hkey

theorem aligned_generatedKey {nextDomain}
    (hnext : state.domains.getDomainByIndex (state.generatedKeys.length + 1) = some nextDomain) :
    Aligned (.initializing { state with
      generatedKeys := state.generatedKeys ++ [key]
      generatingKey := .new state.epochId nextDomain parameters }) where
  ordered := haligned.ordered
  keys := haligned.keys.snoc haligned.current hkey
  strict := by
    have hlength := DomainRegistry.lt_length_of_getDomainByIndex hnext
    simpa using hlength
  current := by simpa using hnext

theorem aligned_generatedAllKeys
    (hnone : state.domains.getDomainByIndex (state.generatedKeys.length + 1) = none) :
    Aligned (.running (new state.domains
      { epochId := state.epochId, domains := state.generatedKeys ++ [key] } parameters {})) where
  ordered := haligned.ordered
  keys := by
    have hlength := DomainRegistry.index_succ_eq_length haligned.current hnone
    exact (haligned.keys.snoc haligned.current hkey).eq_of_length (by simpa using hlength)

end

theorem aligned_cancelKeygen (haligned : state.Aligned) :
    Aligned (.running (new
      (state.domains.retainDomains state.generatedKeys.length)
      { epochId := state.epochId, domains := state.generatedKeys }
      state.generatingKey.parameters {})) where
  ordered := haligned.ordered.retainDomains _
  keys := haligned.keys.retainDomains

end Initializing

section Resharing

variable {state : ResharingContractState}

section

variable {key : KeyForDomain} {epochId : EpochId} {parameters : ThresholdParameters}
  (haligned : state.Aligned) (hkey : key.domainId = state.resharingKey.domain.id)
include haligned hkey

theorem aligned_resharedKey {nextDomain}
    (hnext : state.previousRunningState.domains.getDomainByIndex (state.resharedKeys.length + 1) =
      some nextDomain) :
    Aligned (.resharing { state with
      resharedKeys := state.resharedKeys ++ [key]
      resharingKey := .new epochId nextDomain parameters }) where
  previous := haligned.previous
  keys := haligned.keys.snoc haligned.current hkey
  strict := by
    have hlength := DomainRegistry.lt_length_of_getDomainByIndex hnext
    simpa using hlength
  current := by simpa using hnext

theorem aligned_resharedAllKeys
    (hnone : state.previousRunningState.domains.getDomainByIndex (state.resharedKeys.length + 1) =
      none) :
    Aligned (.running (new state.previousRunningState.domains
      { epochId, domains := state.resharedKeys ++ [key] } parameters votes)) where
  ordered := haligned.previous.ordered
  keys := by
    have hlength := DomainRegistry.index_succ_eq_length haligned.current hnone
    exact (haligned.keys.snoc haligned.current hkey).eq_of_length (by simpa using hlength)

end

end Resharing

end ProtocolContractState

namespace MpcContract

open ProtocolContractState

/-- The condition on a step: a completed vote to add domains does not exhaust the domain ids. -/
def DomainIdsRemain (contract : MpcContract) (call : Call) : Prop :=
  match contract.protocolState, call.method with
  | .running state, .voteAddDomains domains =>
      state.addDomainsVoteCompletes call.env domains →
        state.domains.nextDomainId + domains.length < counterLimit
  | _, _ => True

instance (contract : MpcContract) (call : Call) : Decidable (contract.DomainIdsRemain call) :=
  decidable_of_iff
    ((match contract.protocolState, call.method with
      | .running state, .voteAddDomains domains =>
          decide (state.addDomainsVoteCompletes call.env domains →
            state.domains.nextDomainId + domains.length < counterLimit)
      | _, _ => true) = true) (by
    unfold DomainIdsRemain
    split <;> simp only [decide_eq_true_eq])

variable {contract : MpcContract}

theorem aligned_of_stateChange {call timeoutBlocks after}
    (hchange : StateChange call timeoutBlocks contract.protocolState after)
    (haligned : contract.protocolState.Aligned) (hremain : contract.DomainIdsRemain call) :
    after.Aligned := by
  unfold DomainIdsRemain at hremain
  generalize contract.protocolState = before at hchange haligned hremain
  cases hchange with
  | unchanged => exact haligned
  | migrated | votedDomains => exact ⟨haligned.ordered, haligned.keys⟩
  | votedParameters _ _ _ _ hvote =>
    obtain ⟨-, -, -, rfl, -⟩ := processNewParametersProposal_cases hvote
    exact ⟨haligned.ordered, haligned.keys⟩
  | reshare _ _ hagreed hfirst =>
    obtain ⟨-, -, _, rfl⟩ := hagreed.validated
    exact aligned_reshare ⟨haligned.ordered, haligned.keys⟩ hfirst
  | adopt _ hagreed hnone =>
    obtain ⟨-, -, _, rfl⟩ := hagreed.validated
    exact aligned_adopt ⟨haligned.ordered, haligned.keys⟩ hnone
  | addDomains _ _ _ hmethod hcompletes hadd hfirst =>
    simp only [hmethod] at hremain
    exact aligned_addDomains haligned hadd hfirst (hremain hcompletes)
  | keygenProgress _ hprogress =>
    refine ⟨haligned.ordered, haligned.keys, haligned.strict, ?_⟩
    rw [hprogress.domain]
    exact haligned.current
  | generatedKey _ _ _ _ hvote hnext =>
    exact aligned_generatedKey haligned (KeyEvent.voteSuccess_eq_ok hvote).2.2 hnext
  | generatedAllKeys _ _ _ hvote hnone =>
    exact aligned_generatedAllKeys haligned (KeyEvent.voteSuccess_eq_ok hvote).2.2 hnone
  | votedCancelKeygen =>
    exact ⟨haligned.ordered, haligned.keys, haligned.strict, haligned.current⟩
  | cancelKeygen => exact aligned_cancelKeygen haligned
  | reshareProgress _ hprogress =>
    refine ⟨haligned.previous, haligned.keys, haligned.strict, ?_⟩
    rw [hprogress.domain]
    exact haligned.current
  | resharedKey _ _ _ _ _ hvote hnext =>
    exact aligned_resharedKey haligned (KeyEvent.voteSuccess_eq_ok hvote).2.2 hnext
  | resharedAllKeys _ _ _ _ hvote hnone =>
    exact aligned_resharedAllKeys haligned (KeyEvent.voteSuccess_eq_ok hvote).2.2 hnone
  | votedCancelResharing =>
    exact ⟨haligned.previous, haligned.keys, haligned.strict, haligned.current⟩
  | cancelResharing => exact ⟨haligned.previous.ordered, haligned.previous.keys⟩
  | votedReproposal _ _ _ _ _ hvote =>
    obtain ⟨-, -, -, rfl, -⟩ := processNewParametersProposal_cases hvote
    exact ⟨⟨haligned.previous.ordered, haligned.previous.keys⟩, haligned.keys, haligned.strict,
      haligned.current⟩
  | supersede _ _ _ _ _ _ hvote hfirst =>
    obtain ⟨-, -, -, rfl, -⟩ := processNewParametersProposal_cases hvote
    exact aligned_reshare ⟨haligned.previous.ordered, haligned.previous.keys⟩ hfirst

theorem deployed_aligned (hdeployed : Deployed contract) : contract.protocolState.Aligned := by
  obtain ⟨_, _, _, hstate, -, hordered, hids⟩ := deployed_cases hdeployed
  rw [hstate]
  exact ⟨hordered, hids⟩

theorem aligned_run {calls} (hdeployed : Deployed contract)
    (hmeet : StepsMeet apply DomainIdsRemain contract calls) :
    (run apply contract calls).protocolState.Aligned :=
  hmeet.invariant (deployed_aligned hdeployed) fun state call hremain haligned ↦
    aligned_of_stateChange (state.stateChange_apply call) haligned hremain

end MpcContract

/-! ### No transition panics -/

section Panics

variable {event : KeyEvent}

theorem KeyEvent.leader_ne_none (hnonempty : event.parameters.participants.participants ≠ []) :
    event.leader ≠ none := by
  unfold KeyEvent.leader
  cases hentries : event.parameters.participants.participants with
  | nil => exact absurd hentries hnonempty
  | cons entry rest =>
    -- once there is a candidate, there is one to the end of the fold
    refine List.foldlRecOn (motive := fun best ↦ best ≠ none) rest _ (by simp) ?_
    intro best hbest entry _
    cases best with
    | none => exact absurd rfl hbest
    | some least => by_cases hless : entry.2.1 < least.2.1 <;> simp [hless]

theorem KeyEvent.start_ne_panicked (hnonempty : event.parameters.participants.participants ≠ [])
    (env : Env) (keyEventId : KeyEventId) (timeoutBlocks : ℕ) :
    event.start env keyEventId timeoutBlocks ≠ .panicked := by
  have hleader : ∀ cleaned : KeyEvent, cleaned.parameters = event.parameters →
      cleaned.verifyLeader env ≠ .panicked := by
    intro cleaned hsame hpanic
    have hsome : cleaned.leader ≠ none := leader_ne_none (by rwa [hsame])
    simp only [verifyLeader, bind_eq_panicked, unwrap_eq_panicked, require_ne_panicked, and_false,
      exists_false, or_false] at hpanic
    exact hsome hpanic
  simp only [start, Ne, bind_eq_panicked, require_ne_panicked, false_or, pure_eq, reduceCtorEq,
    and_false, exists_false, or_false, not_exists, not_and]
  intro _ _ _ _
  exact hleader (event.cleanupIfTimedOut env) rfl

/-- A verified vote is about an attempt in progress. -/
theorem KeyEvent.currentInstance_of_verifyVote {verified env keyEventId candidate}
    (hok : event.verifyVote env keyEventId = .ok (verified, candidate)) :
    verified.currentInstance ≠ none := by
  simp only [verifyVote, bind_eq_ok, okOr_eq_ok, require_eq_ok, exists_const, pure_eq,
    ok.injEq, Prod.mk.injEq] at hok
  obtain ⟨_, -, _, hcurrent, -, rfl, -⟩ := hok
  rw [hcurrent]
  simp

theorem KeyEvent.verifyVote_ne_panicked (event : KeyEvent) (env : Env) (keyEventId : KeyEventId) :
    event.verifyVote env keyEventId ≠ .panicked := by
  simp only [verifyVote, authenticatedParticipantId, Ne, bind_eq_panicked, okOr_ne_panicked,
    require_ne_panicked, pure_eq, reduceCtorEq, and_false, exists_false, or_self, not_false_eq_true]

theorem KeyEvent.voteSuccess_ne_panicked (event : KeyEvent) (env : Env) (keyEventId : KeyEventId)
    (publicKey : PublicKeyExtended) : event.voteSuccess env keyEventId publicKey ≠ .panicked := by
  intro hpanic
  simp only [voteSuccess, bind_eq_panicked, verifyVote_ne_panicked, false_or, Prod.exists,
    unwrap_eq_panicked] at hpanic
  obtain ⟨_, _, hverify, hnone | ⟨_, -, hvote⟩⟩ := hpanic
  · exact currentInstance_of_verifyVote hverify hnone
  · rcases hvote with hvote | ⟨next, result, -, hresult⟩
    · unfold KeyEventInstance.voteSuccess KeyEventInstance.voteSuccess.commit at hvote
      split at hvote
      · split_ifs at hvote
        simp [bind_eq_panicked] at hvote
      · simp [bind_eq_panicked] at hvote
    · cases result <;> simp at hresult

theorem KeyEvent.voteAbort_ne_panicked (event : KeyEvent) (env : Env) (keyEventId : KeyEventId) :
    event.voteAbort env keyEventId ≠ .panicked := by
  intro hpanic
  simp only [voteAbort, bind_eq_panicked, verifyVote_ne_panicked, false_or, Prod.exists,
    unwrap_eq_panicked, require_ne_panicked, pure_eq, reduceCtorEq, and_false, exists_false,
    or_false] at hpanic
  obtain ⟨_, _, hverify, hnone⟩ := hpanic
  exact currentInstance_of_verifyVote hverify hnone

theorem DomainRegistry.addDomains_ne_panicked (registry : DomainRegistry)
    (domains : List DomainConfig) : registry.addDomains domains ≠ .panicked := by
  induction domains generalizing registry with
  | nil => simp [addDomains]
  | cons _ _ ih => simp [addDomains, bind_eq_panicked, ih]

theorem RunningContractState.checkSchemes_ne_panicked (domains : List DomainConfig) :
    checkSchemes domains ≠ .panicked := by
  induction domains with
  | nil => simp [checkSchemes]
  | cons _ _ ih => simp [checkSchemes, bind_eq_panicked, ih]

variable (running : RunningContractState) (env : Env)

theorem RunningContractState.voteAddDomains_ne_panicked (domains : List DomainConfig) :
    running.voteAddDomains env domains ≠ .panicked := by
  intro hpanic
  simp only [voteAddDomains, bind_eq_panicked, require_ne_panicked, false_or, require_eq_ok,
    exists_const, checkSchemes_ne_panicked] at hpanic
  obtain ⟨hnonempty, _, -, hvote⟩ := hpanic
  simp only [authenticatedParticipantId, okOr_ne_panicked, false_or] at hvote
  obtain ⟨_, -, hvote⟩ := hvote
  split_ifs at hvote
  · simp only [bind_eq_panicked, DomainRegistry.addDomains_ne_panicked, false_or,
      unwrap_eq_panicked, pure_eq, reduceCtorEq, and_false, exists_false, or_false,
      List.head?_eq_none_iff] at hvote
    obtain ⟨_, -, hempty⟩ := hvote
    exact hnonempty hempty

theorem ThresholdParameters.scanProposed_ne_panicked {oldById oldByAcc} (scan : ProposalScan)
    (entries : List ParticipantEntry) : scanProposed oldById oldByAcc scan entries ≠ .panicked := by
  induction entries generalizing scan with
  | nil => simp [scanProposed]
  | cons _ _ ih =>
    rw [scanProposed]
    split <;> simp [bind_eq_panicked, ih]

theorem ThresholdParameters.validateIncomingProposal_ne_panicked
    (current proposal : ThresholdParameters) :
    current.validateIncomingProposal proposal ≠ .panicked := by
  intro hpanic
  simp only [validateIncomingProposal, validate, validateThreshold, Participants.validate,
    bind_eq_panicked, require_ne_panicked, false_or, and_false, exists_false,
    scanProposed_ne_panicked] at hpanic
  obtain ⟨_, -, _, -, _, -, hnew⟩ := hpanic
  split_ifs at hnew
  simp [bind_eq_panicked] at hnew

theorem RunningContractState.processNewParametersProposal_ne_panicked
    (proposal : ThresholdParameters) :
    running.processNewParametersProposal env proposal ≠ .panicked := by
  intro hpanic
  simp only [processNewParametersProposal, bind_eq_panicked, require_ne_panicked, false_or,
    ThresholdParameters.validateIncomingProposal_ne_panicked, pure_eq, reduceCtorEq, and_false,
    exists_false, or_false] at hpanic
  obtain ⟨_, -, hcandidate⟩ := hpanic
  unfold authenticatedAccountId at hcandidate
  split_ifs at hcandidate

theorem ThresholdParameters.Valid.participants_ne_nil {parameters : ThresholdParameters}
    (hvalid : parameters.Valid) : parameters.participants.participants ≠ [] := by
  intro hempty
  have hminimum := hvalid.minimum
  have hmaximum := hvalid.maximum
  rw [Participants.len, hempty] at hmaximum
  simp only [List.length_nil] at hmaximum
  omega

namespace ProtocolContractState

/-- No transition of the state hits an `unwrap` or an index out of bounds. -/
structure PanicFree (state : ProtocolContractState) : Prop where
  startKeygenInstance : ∀ env keyEventId timeoutBlocks,
    state.startKeygenInstance env keyEventId timeoutBlocks ≠ .panicked
  startReshareInstance : ∀ env keyEventId timeoutBlocks,
    state.startReshareInstance env keyEventId timeoutBlocks ≠ .panicked
  voteReshared : ∀ env keyEventId, state.voteReshared env keyEventId ≠ .panicked
  voteCancelResharing : ∀ env, state.voteCancelResharing env ≠ .panicked
  votePk : ∀ env keyEventId publicKey, state.votePk env keyEventId publicKey ≠ .panicked
  voteNewParameters : ∀ env prospectiveEpochId proposal,
    state.voteNewParameters env prospectiveEpochId proposal ≠ .panicked
  voteAddDomains : ∀ env domains, state.voteAddDomains env domains ≠ .panicked
  voteAbortKeyEventInstance : ∀ env keyEventId,
    state.voteAbortKeyEventInstance env keyEventId ≠ .panicked
  voteCancelKeygen : ∀ env nextDomainId, state.voteCancelKeygen env nextDomainId ≠ .panicked

variable (state : InitializingContractState) (env : Env)

theorem votePk_ne_panicked (keyEventId : KeyEventId) (publicKey : PublicKeyExtended) :
    state.votePk env keyEventId publicKey ≠ .panicked := by
  intro hpanic
  simp only [InitializingContractState.votePk, bind_eq_panicked, KeyEvent.voteSuccess_ne_panicked,
    false_or, Prod.exists] at hpanic
  obtain ⟨_, all, -, hresult⟩ := hpanic
  cases all with
  | false => simp at hresult
  | true =>
    simp only [if_true] at hresult
    split at hresult <;> simp at hresult

theorem voteCancel_ne_panicked (nextDomainId : ℕ) :
    state.voteCancel env nextDomainId ≠ .panicked := by
  intro hpanic
  simp only [InitializingContractState.voteCancel, bind_eq_panicked, require_ne_panicked, false_or,
    authenticatedParticipantId, okOr_ne_panicked] at hpanic
  obtain ⟨_, -, _, -, hresult⟩ := hpanic
  split_ifs at hresult

variable {state : ResharingContractState}

/-- The key to reshare is looked up at the index of the domain at work. -/
theorem voteReshared_ne_panicked (haligned : state.Aligned) (env : Env) (keyEventId : KeyEventId) :
    state.voteReshared env keyEventId ≠ .panicked := by
  intro hpanic
  simp only [ResharingContractState.voteReshared, bind_eq_panicked, unwrap_eq_panicked,
    KeyEvent.voteSuccess_ne_panicked, false_or, Prod.exists] at hpanic
  rcases hpanic with hnone | ⟨previousKey, -, resharingKey, all, -, hresult⟩
  · have hlength := List.getElem?_eq_none_iff.mp hnone
    rw [haligned.previous.length_keys] at hlength
    exact absurd haligned.strict (by omega)
  · cases all with
    | false => simp at hresult
    | true =>
      simp only [if_true] at hresult
      split at hresult <;> simp at hresult

theorem voteCancelResharing_ne_panicked (state : ResharingContractState) (env : Env) :
    state.voteCancelResharing env ≠ .panicked := by
  intro hpanic
  simp only [ResharingContractState.voteCancelResharing, bind_eq_panicked] at hpanic
  rcases hpanic with hcandidate | ⟨candidate, -, hresult⟩
  · unfold authenticatedAccountId at hcandidate
    split_ifs at hcandidate
  · split_ifs at hresult

theorem running_voteNewParameters_ne_panicked (running : RunningContractState) (env : Env)
    (prospectiveEpochId : EpochId) (proposal : ThresholdParameters) :
    running.voteNewParameters env prospectiveEpochId proposal ≠ .panicked := by
  intro hpanic
  simp only [RunningContractState.voteNewParameters, bind_eq_panicked, require_ne_panicked,
    false_or, RunningContractState.processNewParametersProposal_ne_panicked,
    Prod.exists] at hpanic
  obtain ⟨_, -, _, _, -, hresult⟩ := hpanic
  split_ifs at hresult

/-- A resharing has a first domain to start over with. -/
theorem resharing_voteNewParameters_ne_panicked (haligned : state.Aligned) (env : Env)
    (prospectiveEpochId : EpochId) (proposal : ThresholdParameters) :
    state.voteNewParameters env prospectiveEpochId proposal ≠ .panicked := by
  intro hpanic
  simp only [ResharingContractState.voteNewParameters, bind_eq_panicked, require_ne_panicked,
    false_or, processNewParametersProposal_ne_panicked,
    Prod.exists] at hpanic
  obtain ⟨_, -, _, _, hvote, hresult⟩ := hpanic
  obtain ⟨-, -, -, rfl, -⟩ := processNewParametersProposal_cases hvote
  split_ifs at hresult
  simp only [bind_eq_panicked, unwrap_eq_panicked, pure_eq, reduceCtorEq, and_false,
    exists_false, or_false, DomainRegistry.getDomainByIndex, List.getElem?_eq_none_iff] at hresult
  exact absurd haligned.strict (by omega)

theorem panicFree_of_aligned {state : ProtocolContractState} (haligned : state.Aligned)
    (hvalid : state.ParametersValid) : state.PanicFree := by
  cases state with
  | notInitialized => constructor <;> intros <;> rintro ⟨⟩
  | running =>
    constructor <;> intros
    case voteNewParameters =>
      simp [voteNewParameters, bind_eq_panicked, running_voteNewParameters_ne_panicked]
    case voteAddDomains =>
      simp [voteAddDomains, bind_eq_panicked, voteAddDomains_ne_panicked]
    all_goals rintro ⟨⟩
  | initializing =>
    have hnonempty := (hvalid.current _ rfl).participants_ne_nil
    constructor <;> intros
    case startKeygenInstance =>
      simp [startKeygenInstance, InitializingContractState.start,
        bind_eq_panicked, KeyEvent.start_ne_panicked hnonempty]
    case votePk =>
      simp [votePk, bind_eq_panicked, votePk_ne_panicked]
    case voteAbortKeyEventInstance =>
      simp [voteAbortKeyEventInstance, InitializingContractState.voteAbort,
        bind_eq_panicked, KeyEvent.voteAbort_ne_panicked]
    case voteCancelKeygen =>
      simp [voteCancelKeygen, bind_eq_panicked, voteCancel_ne_panicked]
    all_goals rintro ⟨⟩
  | resharing =>
    have hnonempty := (hvalid.prospective _ rfl).participants_ne_nil
    constructor <;> intros
    case startReshareInstance =>
      simp [startReshareInstance, ResharingContractState.start,
        bind_eq_panicked, KeyEvent.start_ne_panicked hnonempty]
    case voteReshared =>
      simp [voteReshared, bind_eq_panicked, voteReshared_ne_panicked haligned]
    case voteCancelResharing =>
      simp [voteCancelResharing, bind_eq_panicked, voteCancelResharing_ne_panicked]
    case voteNewParameters =>
      simp [voteNewParameters, bind_eq_panicked, resharing_voteNewParameters_ne_panicked haligned]
    case voteAbortKeyEventInstance =>
      simp [voteAbortKeyEventInstance, ResharingContractState.voteAbort,
        bind_eq_panicked, KeyEvent.voteAbort_ne_panicked]
    all_goals rintro ⟨⟩

end ProtocolContractState

end Panics

/-! ### Runs -/

namespace MpcContract

namespace LastDomainId

open TwoNodes (parameters signedBy)

/-- A network without keys whose next domain id is given. -/
def network (nextDomainId : ℕ) : MpcContract where
  protocolState := .running (new { domains := [], nextDomainId }
    { epochId := 0, domains := [] } parameters {})
  acceptRequests := true
  keyEventTimeoutBlocks := 10
  ongoingMigrations := ∅

theorem network_deployed (nextDomainId : ℕ) : Deployed (network nextDomainId) :=
  Or.inr ⟨[], nextDomainId, { epochId := 0, domains := [] }, parameters, 10, rfl⟩

/-- Both vote for a domain with the id. -/
def addDomain (id : DomainId) : List Call :=
  ["alice", "bob"].map fun account ↦
    signedBy account (.voteAddDomains [{ id, scheme := .secp256k1, purpose := .sign }])

end LastDomainId

open LastDomainId ProtocolContractState

/-- Along a run that does not exhaust the domain ids, registry, keys and key event stay aligned, and
no transition of the state reached can panic. -/
theorem registry_keys_and_event_stay_aligned {contract : MpcContract} {calls : List Call}
    (hdeployed : Deployed contract) (hmeet : StepsMeet apply DomainIdsRemain contract calls) :
    (run apply contract calls).protocolState.Aligned ∧
      (run apply contract calls).protocolState.PanicFree := by
  have haligned := aligned_run hdeployed hmeet
  exact ⟨haligned, panicFree_of_aligned haligned (parametersValid_run hdeployed calls)⟩

/-- Both participants of a fresh network vote for its first domain. -/
theorem registry_keys_and_event_stay_aligned_firstDomain :
    StepsMeet apply DomainIdsRemain (network 0) (addDomain 0) ∧
      (run apply (network 0) (addDomain 0)).protocolState.Aligned := by
  have hmeet : StepsMeet apply DomainIdsRemain (network 0) (addDomain 0) := by decide +kernel
  exact ⟨hmeet, (registry_keys_and_event_stay_aligned (network_deployed 0) hmeet).1⟩

/-- The domain with the last id is added, and `next_domain_id` starts again at zero, below it. -/
theorem lastDomainId_not_below_next :
    Deployed (network (2 ^ 64 - 1)) ∧
      ¬ (run apply (network (2 ^ 64 - 1)) (addDomain (2 ^ 64 - 1))).protocolState.Aligned := by
  refine ⟨network_deployed _, ?_⟩
  have hstate : ∃ state, (run apply (network (2 ^ 64 - 1)) (addDomain (2 ^ 64 - 1))).protocolState =
      .initializing state ∧ state.domains =
        { domains := [{ id := 2 ^ 64 - 1, scheme := .secp256k1, purpose := .sign }]
          nextDomainId := 0 } := ⟨_, rfl, by decide +kernel⟩
  obtain ⟨state, hrun, hdomains⟩ := hstate
  rw [hrun]
  intro haligned
  have hbelow := haligned.ordered.below
  rw [hdomains] at hbelow
  exact absurd (hbelow _ List.mem_cons_self) (Nat.not_lt_zero _)

end MpcContract

end NearMpc.Contract
