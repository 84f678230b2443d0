import NearMpc.Contract.StateChanges

/-!
# Epoch ids along a run of the contract

Every resharing gets a prospective epoch id, and a key event id names an epoch, a domain and an
attempt. Nodes store key shares under key event ids, so none may be started twice.

A running state remembers the epoch of its keyset and, after a cancelled resharing, the epoch that
was given up; `epochBound` is the higher of the two. `Advances` is what one call does to a
well-formed state: it stays well formed, the bound does not fall, an id that has been passed
(`Passed`) stays passed, and a resharing that is newly entered lies above the bound.

The memory of the given up epoch survives every call but one. A completed vote to add domains
builds the initializing state from the keyset alone, and the running state that follows no longer
knows of the cancelled resharing. `KeepsCancelledEpoch` excludes that step, and the exhaustion of
the 64 bit counters.
-/

set_option autoImplicit false

namespace NearMpc.Contract

open Library Library.Outcome RunningContractState

/-! ### What a state knows of the past -/

namespace RunningContractState

/-- The highest epoch id that a running state remembers. -/
def epochBound (self : RunningContractState) : EpochId :=
  self.previouslyCancelledResharingEpochId.getD self.keyset.epochId

/-- Every domain has a key, and only a state with keys can have cancelled a resharing. -/
structure WellFormed (running : RunningContractState) : Prop where
  ordered : running.domains.Ordered
  keys : running.keyset.domains.length = running.domains.domains.length
  cancelled : ∀ epochId ∈ running.previouslyCancelledResharingEpochId,
    running.keyset.epochId ≤ epochId ∧ running.domains.domains ≠ []

/-- Two running states that differ in votes and participants only. -/
structure SameKeys (before after : RunningContractState) : Prop where
  domains : after.domains = before.domains
  keyset : after.keyset = before.keyset
  cancelled : after.previouslyCancelledResharingEpochId =
    before.previouslyCancelledResharingEpochId

theorem keyset_epochId_le_epochBound {running : RunningContractState}
    (hwell : running.WellFormed) : running.keyset.epochId ≤ running.epochBound := by
  unfold epochBound
  cases hcancelled : running.previouslyCancelledResharingEpochId with
  | none => exact le_rfl
  | some epochId => exact (hwell.cancelled epochId hcancelled).1

theorem prospectiveEpochId_eq (running : RunningContractState) :
    running.prospectiveEpochId = EpochId.next running.epochBound := by
  unfold prospectiveEpochId epochBound
  cases running.previouslyCancelledResharingEpochId <;> rfl

variable {before after : RunningContractState}

theorem SameKeys.epochBound (hsame : SameKeys before after) :
    after.epochBound = before.epochBound := by
  unfold RunningContractState.epochBound
  rw [hsame.keyset, hsame.cancelled]

theorem SameKeys.wellFormed (hsame : SameKeys before after) (hwell : before.WellFormed) :
    after.WellFormed where
  ordered := hsame.domains ▸ hwell.ordered
  keys := by rw [hsame.keyset, hsame.domains, hwell.keys]
  cancelled := by
    rw [hsame.cancelled, hsame.keyset, hsame.domains]
    exact hwell.cancelled

/-- A state built by `new` remembers no cancelled resharing. -/
theorem wellFormed_new {domains keyset} (hordered : domains.Ordered)
    (hkeys : keyset.domains.length = domains.domains.length) (parameters : ThresholdParameters)
    (votes : AddDomainsVotes) :
    (new domains keyset parameters votes).WellFormed where
  ordered := hordered
  keys := hkeys
  cancelled := by simp [new]

@[simp] theorem epochBound_new (domains : DomainRegistry) (keyset : Keyset)
    (parameters : ThresholdParameters) (votes : AddDomainsVotes) :
    (new domains keyset parameters votes).epochBound = keyset.epochId := rfl

end RunningContractState

/-- The key event is about the first domain that has no key yet. -/
structure InitializingContractState.WellFormed (state : InitializingContractState) : Prop where
  ordered : state.domains.Ordered
  current : state.domains.getDomainByIndex state.generatedKeys.length =
    some state.generatingKey.domain
  epoch : state.generatingKey.epochId = state.epochId

/-- The key event is about the first domain that has not been reshared yet, in an epoch above the
one being left. -/
structure ResharingContractState.WellFormed (state : ResharingContractState) : Prop where
  ordered : state.previousRunningState.domains.Ordered
  keys : state.previousRunningState.keyset.domains.length =
    state.previousRunningState.domains.domains.length
  current : state.previousRunningState.domains.getDomainByIndex state.resharedKeys.length =
    some state.resharingKey.domain
  epoch : state.previousRunningState.keyset.epochId < state.resharingKey.epochId

variable {keyEventId : KeyEventId} {env : Env}

namespace ProtocolContractState

/-- The epoch ids of the keysets and resharings that exist in a state. -/
def epochIds : ProtocolContractState → List EpochId
  | .notInitialized => []
  | .initializing state => [state.epochId]
  | .running state => [state.keyset.epochId]
  | .resharing state => [state.previousRunningState.keyset.epochId, state.prospectiveEpochId]

/-- The highest epoch id that a state remembers. -/
def epochBound : ProtocolContractState → EpochId
  | .notInitialized => 0
  | .initializing state => state.epochId
  | .running state => state.epochBound
  | .resharing state => state.resharingKey.epochId

def WellFormed : ProtocolContractState → Prop
  | .notInitialized => True
  | .initializing state => state.WellFormed
  | .running state => state.WellFormed
  | .resharing state => state.WellFormed

/-- The key event ids that lie behind a state. In the order of epochs, within an epoch of domains
and within a domain of attempts, they are below the next id to start. -/
def Passed : ProtocolContractState → KeyEventId → Prop
  | .notInitialized, _ => False
  | .initializing state, id =>
      id.epochId ≤ state.epochId ∧ (id.domainId < state.generatingKey.domain.id ∨
        id.domainId = state.generatingKey.domain.id ∧
          id.attemptId < state.generatingKey.nextAttemptId)
  | .running state, id =>
      id.domainId < state.domains.nextDomainId ∧ id.epochId ≤ state.epochBound
  | .resharing state, id =>
      id.domainId < state.previousRunningState.domains.nextDomainId ∧
        (id.epochId < state.resharingKey.epochId ∨ id.epochId = state.resharingKey.epochId ∧
          (id.domainId < state.resharingKey.domain.id ∨
            id.domainId = state.resharingKey.domain.id ∧
              id.attemptId < state.resharingKey.nextAttemptId))

/-- The epoch id of the resharing that a step newly enters, be it from running or by superseding
another resharing. -/
def resharingEntered : ProtocolContractState → ProtocolContractState → Option EpochId
  | .resharing before, .resharing after =>
      if after.prospectiveEpochId = before.prospectiveEpochId then none
      else some after.prospectiveEpochId
  | _, .resharing after => some after.prospectiveEpochId
  | _, _ => none

/-- No epoch or attempt counter that the next call may advance is at its limit. -/
def CountersBelowLimit : ProtocolContractState → Prop
  | .notInitialized => True
  | .initializing state => state.generatingKey.nextAttemptId + 1 < counterLimit
  | .running state => state.epochBound + 1 < counterLimit
  | .resharing state =>
      state.resharingKey.epochId + 1 < counterLimit ∧
        state.resharingKey.nextAttemptId + 1 < counterLimit

/-- What one call does to a well-formed state. -/
structure Advances (before after : ProtocolContractState) : Prop where
  wellFormed : after.WellFormed
  bound : before.epochBound ≤ after.epochBound
  passed : ∀ id, before.Passed id → after.Passed id
  entered : ∀ epochId ∈ resharingEntered before after, before.epochBound < epochId

variable {state : ProtocolContractState}

theorem epochIds_le_epochBound (hwell : state.WellFormed) :
    ∀ epochId ∈ state.epochIds, epochId ≤ state.epochBound := by
  intro _ hmem
  cases state with
  | notInitialized => simp [epochIds] at hmem
  | initializing => exact (List.mem_singleton.mp hmem).le
  | running =>
    rw [List.mem_singleton.mp hmem]
    exact keyset_epochId_le_epochBound hwell
  | resharing =>
    simp only [epochIds, List.mem_cons, List.not_mem_nil, or_false] at hmem
    rcases hmem with rfl | rfl
    · exact hwell.epoch.le
    · exact le_rfl

theorem Advances.refl (hwell : state.WellFormed) : Advances state state where
  wellFormed := hwell
  bound := le_rfl
  passed := fun _ hpassed ↦ hpassed
  entered := by
    cases state <;> simp [resharingEntered]

/-! ### Steps from a running state -/

variable {firstDomain : DomainConfig}

section Running

variable {running : RunningContractState}

theorem advances_of_sameKeys {after} (hsame : RunningContractState.SameKeys running after)
    (hwell : running.WellFormed) :
    Advances (.running running) (.running after) where
  wellFormed := hsame.wellFormed hwell
  bound := hsame.epochBound.ge
  passed := by
    rintro _ ⟨hdomain, hepoch⟩
    exact ⟨hsame.domains ▸ hdomain, hsame.epochBound ▸ hepoch⟩
  entered := by simp [resharingEntered]

variable {proposal : ThresholdParameters}

/-- Entering resharing takes an epoch id above the bound. -/
theorem advances_reshare (hwell : running.WellFormed)
    (hlimit : running.epochBound + 1 < counterLimit)
    (hfirst : running.domains.getDomainByIndex 0 = some firstDomain) :
    Advances (.running running) (.resharing
      { previousRunningState := new running.domains running.keyset
          running.parameters running.addDomainsVotes
        resharedKeys := []
        resharingKey := .new running.prospectiveEpochId firstDomain proposal
        cancellationRequests := ∅ }) := by
  have hprospective : running.prospectiveEpochId = running.epochBound + 1 := by
    rw [prospectiveEpochId_eq]
    exact Nat.mod_eq_of_lt hlimit
  have hkeyset := keyset_epochId_le_epochBound hwell
  constructor
  · refine ⟨hwell.ordered, hwell.keys, hfirst, ?_⟩
    simp only [new, KeyEvent.new_epochId, hprospective]
    lia
  · simp only [epochBound, KeyEvent.new_epochId, hprospective]
    lia
  · intro id hpassed
    refine ⟨hpassed.1, .inl ?_⟩
    have hepoch : id.epochId ≤ running.epochBound := hpassed.2
    simp only [KeyEvent.new_epochId, hprospective]
    lia
  · intro epochId hentered
    obtain rfl : running.prospectiveEpochId = epochId := Option.some_inj.mp hentered
    simp only [epochBound, hprospective]
    lia

/-- With no key to reshare, the epoch of the keyset is bumped in place. -/
theorem advances_adopt (hwell : running.WellFormed) (hlimit : running.epochBound + 1 < counterLimit)
    (hnone : running.domains.getDomainByIndex 0 = none) :
    Advances (.running running) (.running (new running.domains
      { epochId := EpochId.next running.keyset.epochId, domains := [] } proposal
      running.addDomainsVotes)) := by
  -- without domains no resharing was ever cancelled, so the keyset carries the bound
  have hempty : running.domains.domains = [] := by
    simpa [DomainRegistry.getDomainByIndex] using hnone
  have hbound : running.epochBound = running.keyset.epochId := by
    unfold RunningContractState.epochBound
    cases hcancelled : running.previouslyCancelledResharingEpochId with
    | none => rfl
    | some epochId => exact absurd hempty (hwell.cancelled epochId hcancelled).2
  have hnext : EpochId.next running.keyset.epochId = running.keyset.epochId + 1 := by
    rw [hbound] at hlimit
    exact Nat.mod_eq_of_lt hlimit
  constructor
  · exact wellFormed_new hwell.ordered (by simp [hempty]) _ _
  · simp only [epochBound, epochBound_new, hbound, hnext]
    lia
  · intro id hpassed
    refine ⟨hpassed.1, ?_⟩
    have hepoch : id.epochId ≤ running.epochBound := hpassed.2
    simp only [epochBound_new, hnext]
    lia
  · simp [resharingEntered]

/-- A completed vote to add domains rebuilds the state from the keyset alone. It advances the
state when no cancelled resharing is remembered. -/
theorem advances_addDomains {domains newDomains}
    (hadd : running.domains.addDomains domains = .ok newDomains)
    (hfirst : domains.head? = some firstDomain) (hwell : running.WellFormed)
    (hlimit : running.domains.nextDomainId + domains.length < counterLimit)
    (hnone : running.previouslyCancelledResharingEpochId = none) :
    Advances (.running running) (.initializing
      { generatedKeys := running.keyset.domains
        domains := newDomains
        epochId := running.keyset.epochId
        generatingKey := .new running.keyset.epochId firstDomain running.parameters
        cancelVotes := ∅ }) := by
  have hbound : running.epochBound = running.keyset.epochId := by
    simp [RunningContractState.epochBound, hnone]
  obtain ⟨hordered, hdomains, -, hid⟩ := DomainRegistry.addDomains_eq_ok hadd hwell.ordered hlimit
  have hfirstId : firstDomain.id = running.domains.nextDomainId := hid firstDomain hfirst
  constructor
  · refine ⟨hordered, ?_, rfl⟩
    simp only [DomainRegistry.getDomainByIndex, hdomains, hwell.keys, KeyEvent.new_domain]
    rw [List.getElem?_append_right le_rfl, Nat.sub_self, ← List.head?_eq_getElem?]
    exact hfirst
  · exact hbound.le
  · rintro _ ⟨hdomain, hepoch⟩
    refine ⟨hbound ▸ hepoch, .inl ?_⟩
    rw [KeyEvent.new_domain, hfirstId]
    exact hdomain
  · simp [resharingEntered]

end Running

/-! ### Steps from an initializing state -/

variable {timeoutBlocks : ℕ}

section Initializing

variable {state : InitializingContractState} {generatingKey : KeyEvent}

theorem advances_initializing_of_sameEvent
    (hsame : KeyEvent.SameEvent state.generatingKey generatingKey) (hwell : state.WellFormed)
    (cancelVotes : Finset ParticipantId) :
    Advances (.initializing state) (.initializing { state with generatingKey, cancelVotes }) where
  wellFormed :=
    ⟨hwell.ordered, hsame.domain ▸ hwell.current, hsame.epochId.trans hwell.epoch⟩
  bound := le_rfl
  passed := by
    intro _ hpassed
    simp only [Passed, hsame.domain, hsame.nextAttemptId]
    exact hpassed
  entered := by simp [resharingEntered]

/-- A started attempt was not behind the state, and is afterwards. -/
theorem advances_initializing_start
    (hstart : state.generatingKey.start env keyEventId timeoutBlocks = .ok generatingKey)
    (hwell : state.WellFormed) (hlimit : state.generatingKey.nextAttemptId + 1 < counterLimit) :
    Advances (.initializing state) (.initializing { state with generatingKey }) ∧
      ¬ Passed (.initializing state) keyEventId ∧
      Passed (.initializing { state with generatingKey }) keyEventId := by
  obtain ⟨rfl, hepoch, hdomain, hattempt⟩ := KeyEvent.start_eq_ok hstart
  have hnext : generatingKey.nextAttemptId = state.generatingKey.nextAttemptId + 1 :=
    hattempt.trans (Nat.mod_eq_of_lt hlimit)
  refine ⟨⟨⟨hwell.ordered, hdomain ▸ hwell.current, hepoch.trans hwell.epoch⟩, le_rfl, ?_, ?_⟩,
    ?_, ?_⟩
  · rintro _ ⟨hle, _⟩
    refine ⟨hle, ?_⟩
    rw [hdomain, hnext]
    lia
  · simp [resharingEntered]
  · rintro ⟨-, hbehind⟩
    simp only [KeyEvent.expectedKeyEventId] at hbehind
    lia
  · refine ⟨hwell.epoch.le, .inr ⟨?_, ?_⟩⟩
    · simp only [KeyEvent.expectedKeyEventId, hdomain]
    · simp only [KeyEvent.expectedKeyEventId, hnext]
      lia

theorem advances_keygenProgress
    (hprogress : KeyEvent.Progress env timeoutBlocks state.generatingKey generatingKey)
    (hwell : state.WellFormed) (hlimit : state.generatingKey.nextAttemptId + 1 < counterLimit) :
    Advances (.initializing state) (.initializing { state with generatingKey }) := by
  cases hprogress with
  | started _ hstart => exact (advances_initializing_start hstart hwell hlimit).1
  | voted _ _ hvote =>
    exact advances_initializing_of_sameEvent (KeyEvent.voteSuccess_eq_ok hvote).1 hwell _
  | aborted _ habort =>
    refine advances_initializing_of_sameEvent ?_ hwell _
    exact KeyEvent.voteAbort_eq_ok habort ▸ ⟨rfl, rfl, rfl⟩

theorem advances_generatedKey {generatedKey parameters nextDomain} (hwell : state.WellFormed)
    (hnext : state.domains.getDomainByIndex (state.generatedKeys.length + 1) = some nextDomain) :
    Advances (.initializing state) (.initializing { state with
      generatedKeys := state.generatedKeys ++ [generatedKey]
      generatingKey := .new state.epochId nextDomain parameters }) := by
  have hlater : state.generatingKey.domain.id < nextDomain.id :=
    hwell.ordered.lt_of_index_succ hwell.current hnext
  constructor
  · exact ⟨hwell.ordered, by simpa using hnext, rfl⟩
  · exact le_rfl
  · rintro _ ⟨hepoch, _⟩
    refine ⟨hepoch, .inl ?_⟩
    simp only [KeyEvent.new_domain]
    lia
  · simp [resharingEntered]

/-- Leaving key generation, with the keys that there are for a prefix of the domains. -/
theorem advances_initializing_to_running {domains keys parameters} (hwell : state.WellFormed)
    (hordered : domains.Ordered) (hkeys : keys.length = domains.domains.length)
    (hnext : domains.nextDomainId = state.domains.nextDomainId) :
    Advances (.initializing state) (.running (new domains
      { epochId := state.epochId, domains := keys } parameters {})) := by
  have hbelow := hwell.ordered.below _ (List.mem_of_getElem? hwell.current)
  constructor
  · exact wellFormed_new hordered hkeys _ _
  · exact le_rfl
  · rintro _ ⟨hepoch, _⟩
    refine ⟨?_, hepoch⟩
    simp only [new, hnext]
    lia
  · simp [resharingEntered]

end Initializing

/-! ### Steps from a resharing state -/

section Resharing

variable {state : ResharingContractState} {resharingKey : KeyEvent}
  {previous : RunningContractState}

theorem advances_resharing_of_sameEvent
    (hprev : RunningContractState.SameKeys state.previousRunningState previous)
    (hsame : KeyEvent.SameEvent state.resharingKey resharingKey) (hwell : state.WellFormed)
    (cancellationRequests : Finset AccountId) :
    Advances (.resharing state) (.resharing { state with
      previousRunningState := previous, resharingKey, cancellationRequests }) where
  wellFormed := by
    refine ⟨hprev.domains ▸ hwell.ordered, ?_, ?_, ?_⟩
    · simp only [hprev.keyset, hprev.domains, hwell.keys]
    · simp only [hprev.domains, hsame.domain, hwell.current]
    · simp only [hprev.keyset, hsame.epochId]
      exact hwell.epoch
  bound := hsame.epochId.ge
  passed := by
    intro _ hpassed
    simp only [Passed, hprev.domains, hsame.epochId, hsame.domain, hsame.nextAttemptId]
    exact hpassed
  entered := by simp [resharingEntered, ResharingContractState.prospectiveEpochId, hsame.epochId]

theorem advances_resharing_start
    (hstart : state.resharingKey.start env keyEventId timeoutBlocks = .ok resharingKey)
    (hwell : state.WellFormed) (hlimit : state.resharingKey.nextAttemptId + 1 < counterLimit) :
    Advances (.resharing state) (.resharing { state with resharingKey }) ∧
      ¬ Passed (.resharing state) keyEventId ∧
      Passed (.resharing { state with resharingKey }) keyEventId := by
  obtain ⟨rfl, hepoch, hdomain, hattempt⟩ := KeyEvent.start_eq_ok hstart
  have hnext : resharingKey.nextAttemptId = state.resharingKey.nextAttemptId + 1 :=
    hattempt.trans (Nat.mod_eq_of_lt hlimit)
  have hbelow := hwell.ordered.below _ (List.mem_of_getElem? hwell.current)
  refine ⟨⟨⟨hwell.ordered, hwell.keys, hdomain ▸ hwell.current, hepoch ▸ hwell.epoch⟩,
    hepoch.ge, ?_, ?_⟩, ?_, ?_⟩
  · rintro _ ⟨hlt, _⟩
    refine ⟨hlt, ?_⟩
    simp only [hdomain, hnext, hepoch]
    lia
  · simp [resharingEntered, ResharingContractState.prospectiveEpochId, hepoch]
  · rintro ⟨-, hbehind⟩
    simp only [KeyEvent.expectedKeyEventId] at hbehind
    lia
  · simp only [Passed, KeyEvent.expectedKeyEventId, hepoch, hdomain, hnext]
    lia

theorem advances_reshareProgress
    (hprogress : KeyEvent.Progress env timeoutBlocks state.resharingKey resharingKey)
    (hwell : state.WellFormed) (hlimit : state.resharingKey.nextAttemptId + 1 < counterLimit) :
    Advances (.resharing state) (.resharing { state with resharingKey }) := by
  cases hprogress with
  | started _ hstart => exact (advances_resharing_start hstart hwell hlimit).1
  | voted _ _ hvote =>
    exact advances_resharing_of_sameEvent ⟨rfl, rfl, rfl⟩ (KeyEvent.voteSuccess_eq_ok hvote).1
      hwell _
  | aborted _ habort =>
    refine advances_resharing_of_sameEvent ⟨rfl, rfl, rfl⟩ ?_ hwell _
    exact KeyEvent.voteAbort_eq_ok habort ▸ ⟨rfl, rfl, rfl⟩

theorem advances_resharedKey {reshared nextDomain} (hwell : state.WellFormed)
    (hepoch : resharingKey.epochId = state.resharingKey.epochId)
    (hnext : state.previousRunningState.domains.getDomainByIndex (state.resharedKeys.length + 1) =
      some nextDomain) :
    Advances (.resharing state) (.resharing { state with
      resharedKeys := state.resharedKeys ++ [reshared]
      resharingKey := .new resharingKey.epochId nextDomain resharingKey.parameters }) := by
  have hlater : state.resharingKey.domain.id < nextDomain.id :=
    hwell.ordered.lt_of_index_succ hwell.current hnext
  constructor
  · refine ⟨hwell.ordered, hwell.keys, by simpa using hnext, ?_⟩
    rw [KeyEvent.new_epochId, hepoch]
    exact hwell.epoch
  · exact hepoch.ge
  · rintro _ ⟨hdomain, _⟩
    refine ⟨hdomain, ?_⟩
    simp only [KeyEvent.new_domain, KeyEvent.new_epochId, hepoch]
    lia
  · simp [resharingEntered, ResharingContractState.prospectiveEpochId, hepoch]

/-- Leaving a resharing for a running state whose bound is the resharing's epoch. -/
theorem advances_resharing_to_running {running} (hrunning : running.WellFormed)
    (hbound : running.epochBound = state.resharingKey.epochId)
    (hdomains : running.domains = state.previousRunningState.domains) :
    Advances (.resharing state) (.running running) where
  wellFormed := hrunning
  bound := hbound.ge
  passed := by
    rintro _ ⟨hdomain, _⟩
    refine ⟨hdomains ▸ hdomain, ?_⟩
    rw [hbound]
    lia
  entered := by simp [resharingEntered]

/-- A cancelled resharing leaves its epoch id in the running state. -/
theorem advances_cancelResharing (hwell : state.WellFormed) :
    Advances (.resharing state) (.running { state.previousRunningState with
      previouslyCancelledResharingEpochId := some state.prospectiveEpochId }) := by
  have hnonempty : state.previousRunningState.domains.domains ≠ [] := by
    have hlt := (List.getElem?_eq_some_iff.mp hwell.current).1
    exact List.ne_nil_of_length_pos (by omega)
  refine advances_resharing_to_running ⟨hwell.ordered, hwell.keys, ?_⟩ rfl rfl
  intro epochId hepochId
  obtain rfl : state.resharingKey.epochId = epochId := Option.some_inj.mp hepochId
  exact ⟨hwell.epoch.le, hnonempty⟩

/-- A proposal accepted during resharing takes the next epoch id. -/
theorem advances_supersede {proposal} (hwell : state.WellFormed)
    (hlimit : state.resharingKey.epochId + 1 < counterLimit)
    (hprev : RunningContractState.SameKeys state.previousRunningState previous)
    (hfirst : previous.domains.getDomainByIndex 0 = some firstDomain) :
    Advances (.resharing state) (.resharing
      { previousRunningState := new previous.domains previous.keyset
          previous.parameters previous.addDomainsVotes
        resharedKeys := []
        resharingKey := .new (EpochId.next state.prospectiveEpochId) firstDomain proposal
        cancellationRequests := ∅ }) := by
  have hnext : EpochId.next state.resharingKey.epochId = state.resharingKey.epochId + 1 :=
    Nat.mod_eq_of_lt hlimit
  have hepoch := hwell.epoch
  constructor
  · refine ⟨hprev.domains ▸ hwell.ordered, ?_, hfirst, ?_⟩
    · simp only [new, hprev.keyset, hprev.domains, hwell.keys]
    · simp only [new, KeyEvent.new_epochId, hprev.keyset,
        ResharingContractState.prospectiveEpochId, hnext]
      lia
  · simp only [epochBound, KeyEvent.new_epochId, ResharingContractState.prospectiveEpochId, hnext]
    lia
  · rintro _ ⟨hdomain, _⟩
    refine ⟨?_, .inl ?_⟩
    · simpa only [new, hprev.domains] using hdomain
    · simp only [KeyEvent.new_epochId, ResharingContractState.prospectiveEpochId, hnext]
      lia
  · intro _ hentered
    simp only [resharingEntered, ResharingContractState.prospectiveEpochId, KeyEvent.new_epochId,
      hnext, Nat.succ_ne_self, if_false, Option.mem_def, Option.some.injEq] at hentered
    simp only [epochBound]
    lia

end Resharing

end ProtocolContractState

/-! ### Steps and runs of the contract -/

namespace MpcContract

open ProtocolContractState

variable (contract : MpcContract) (call : Call)

/-- The condition on a step: no counter is exhausted, and the vote that would turn the contract to
generating keys for new domains is not completed while a cancelled resharing is remembered. -/
def KeepsCancelledEpoch : Prop :=
  contract.protocolState.CountersBelowLimit ∧
    match contract.protocolState, call.method with
    | .running state, .voteAddDomains domains =>
        state.domains.nextDomainId + domains.length < counterLimit ∧
          (state.addDomainsVoteCompletes call.env domains →
            state.previouslyCancelledResharingEpochId = none)
    | _, _ => True

instance (state : ProtocolContractState) : Decidable state.CountersBelowLimit := by
  cases state <;> unfold CountersBelowLimit <;> infer_instance

instance (contract : MpcContract) (call : Call) :
    Decidable (contract.KeepsCancelledEpoch call) := by
  unfold KeepsCancelledEpoch
  have : Decidable (match contract.protocolState, call.method with
    | .running state, .voteAddDomains domains =>
        state.domains.nextDomainId + domains.length < counterLimit ∧
          (state.addDomainsVoteCompletes call.env domains →
            state.previouslyCancelledResharingEpochId = none)
    | _, _ => True) := by split <;> infer_instance
  infer_instance

/-- The key event id that a call starts an attempt under. -/
def startedBy : Option KeyEventId :=
  match call.method, contract.perform call with
  | .startKeygenInstance keyEventId, .ok _ => some keyEventId
  | .startReshareInstance keyEventId, .ok _ => some keyEventId
  | _, _ => none

variable {contract : MpcContract}

theorem deployed_wellFormed (hdeployed : Deployed contract) :
    contract.protocolState.WellFormed := by
  obtain ⟨domains, keyset, _, hstate, -, hordered, hids⟩ := deployed_cases hdeployed
  have hkeys : keyset.domains.length = domains.domains.length := by
    simpa using congrArg List.length hids
  rw [hstate]
  exact wellFormed_new hordered hkeys _ _

/-- A vote for a proposal leaves the keys alone. -/
theorem sameKeys_of_vote {running after proposal accepted}
    (hvote : running.processNewParametersProposal env proposal = .ok (after, accepted)) :
    RunningContractState.SameKeys running after := by
  obtain ⟨-, -, -, rfl, -⟩ := processNewParametersProposal_cases hvote
  exact ⟨rfl, rfl, rfl⟩

variable {call : Call}

/-- Every change that meets the condition advances the protocol state. -/
theorem advances_of_stateChange {timeoutBlocks after}
    (hchange : StateChange call timeoutBlocks contract.protocolState after)
    (hwell : contract.protocolState.WellFormed) (hkeep : contract.KeepsCancelledEpoch call) :
    Advances contract.protocolState after := by
  obtain ⟨hlimit, hmethod⟩ := hkeep
  generalize contract.protocolState = before at hchange hwell hlimit hmethod
  cases hchange with
  | unchanged => exact Advances.refl hwell
  | migrated | votedDomains => exact advances_of_sameKeys ⟨rfl, rfl, rfl⟩ hwell
  | votedParameters _ _ _ _ hvote =>
    exact advances_of_sameKeys (sameKeys_of_vote hvote) hwell
  | reshare _ _ hagreed hfirst =>
    obtain ⟨-, -, _, rfl⟩ := hagreed.validated
    exact advances_reshare hwell hlimit hfirst
  | adopt _ hagreed hnone =>
    obtain ⟨-, -, _, rfl⟩ := hagreed.validated
    exact advances_adopt hwell hlimit hnone
  | addDomains _ _ _ hcall hcompletes hadd hfirst =>
    simp only [hcall] at hmethod
    exact advances_addDomains hadd hfirst hwell hmethod.1 (hmethod.2 hcompletes)
  | keygenProgress _ hprogress => exact advances_keygenProgress hprogress hwell hlimit
  | generatedKey _ _ _ _ _ hnext =>
    exact advances_generatedKey hwell hnext
  | generatedAllKeys _ _ _ _ hnone =>
    have hlength := DomainRegistry.index_succ_eq_length hwell.current hnone
    exact advances_initializing_to_running hwell hwell.ordered (by simpa using hlength) rfl
  | votedCancelKeygen =>
    exact advances_initializing_of_sameEvent ⟨rfl, rfl, rfl⟩ hwell _
  | @cancelKeygen _ =>
    have hlength := (List.getElem?_eq_some_iff.mp hwell.current).1
    refine advances_initializing_to_running hwell (hwell.ordered.retainDomains _) ?_ rfl
    simp only [DomainRegistry.retainDomains, List.length_take]
    omega
  | reshareProgress _ hprogress =>
    exact advances_reshareProgress hprogress hwell hlimit.2
  | resharedKey _ _ _ _ _ hvote hnext =>
    exact advances_resharedKey hwell (KeyEvent.voteSuccess_eq_ok hvote).1.epochId hnext
  | resharedAllKeys _ _ _ _ hvote hnone =>
    have hlength := DomainRegistry.index_succ_eq_length hwell.current hnone
    exact advances_resharing_to_running
      (wellFormed_new hwell.ordered (by simpa using hlength) _ _)
      (KeyEvent.voteSuccess_eq_ok hvote).1.epochId rfl
  | votedCancelResharing =>
    exact advances_resharing_of_sameEvent ⟨rfl, rfl, rfl⟩ ⟨rfl, rfl, rfl⟩ hwell _
  | cancelResharing => exact advances_cancelResharing hwell
  | votedReproposal _ _ _ _ _ hvote =>
    exact advances_resharing_of_sameEvent (sameKeys_of_vote hvote) ⟨rfl, rfl, rfl⟩ hwell _
  | supersede _ _ _ _ _ _ hvote hfirst =>
    exact advances_supersede hwell hlimit.1 (sameKeys_of_vote hvote) hfirst

theorem advances_apply (hwell : contract.protocolState.WellFormed)
    (hkeep : contract.KeepsCancelledEpoch call) :
    Advances contract.protocolState (contract.apply call).protocolState :=
  advances_of_stateChange (contract.stateChange_apply call) hwell hkeep

/-- A started attempt advances the state past its id, which was not behind it before. -/
theorem startedBy_passed (hstarted : contract.startedBy call = some keyEventId)
    (hwell : contract.protocolState.WellFormed) (hkeep : contract.KeepsCancelledEpoch call) :
    ¬ contract.protocolState.Passed keyEventId ∧
      (contract.apply call).protocolState.Passed keyEventId := by
  have hlimit := hkeep.1
  unfold startedBy at hstarted
  split at hstarted
  next id next hmethod hok =>
    obtain rfl : id = keyEventId := Option.some_inj.mp hstarted
    simp only [apply, hok]
    simp only [perform, hmethod, startKeygenInstance, bind_eq_ok, pure_eq, ok.injEq] at hok
    obtain ⟨_, -, _, hstart, rfl⟩ := hok
    unfold ProtocolContractState.startKeygenInstance at hstart
    split at hstart
    next state hstate =>
      rw [hstate] at hwell hlimit ⊢
      simp only [InitializingContractState.start, bind_eq_ok, pure_eq, ok.injEq] at hstart
      obtain ⟨_, ⟨_, hstart, rfl⟩, rfl⟩ := hstart
      exact (advances_initializing_start hstart hwell hlimit).2
    next => simp at hstart
  next id next hmethod hok =>
    obtain rfl : id = keyEventId := Option.some_inj.mp hstarted
    simp only [apply, hok]
    simp only [perform, hmethod, startReshareInstance, bind_eq_ok, pure_eq, ok.injEq] at hok
    obtain ⟨_, -, _, hstart, rfl⟩ := hok
    unfold ProtocolContractState.startReshareInstance at hstart
    split at hstart
    next state hstate =>
      rw [hstate] at hwell hlimit ⊢
      simp only [ResharingContractState.start, bind_eq_ok, pure_eq, ok.injEq] at hstart
      obtain ⟨_, ⟨_, hstart, rfl⟩, rfl⟩ := hstart
      exact (advances_resharing_start hstart hwell hlimit.2).2
    next => simp at hstart
  next => simp at hstarted

/-- The key event ids that a run starts attempts under, oldest first. -/
def startedIds : MpcContract → List Call → List KeyEventId
  | _, [] => []
  | contract, call :: rest =>
      (contract.startedBy call).toList ++ startedIds (contract.apply call) rest

/-- Every resharing that the run newly enters has an epoch id above that of every keyset and every
resharing in the states before it. -/
def EntersFreshEpochs (contract : MpcContract) (calls : List Call) : Prop :=
  ∀ earlier later call rest, calls = earlier ++ (later ++ call :: rest) →
    ∀ epochId ∈ resharingEntered (run apply contract (earlier ++ later)).protocolState
        (run apply contract (earlier ++ (later ++ [call]))).protocolState,
      ∀ former ∈ (run apply contract earlier).protocolState.epochIds, former < epochId

section Run

variable {contract : MpcContract} {calls : List Call}
  (hmeet : StepsMeet apply KeepsCancelledEpoch contract calls)
  (hwell : contract.protocolState.WellFormed)
include hmeet hwell

theorem wellFormed_run : (run apply contract calls).protocolState.WellFormed :=
  hmeet.invariant hwell fun _ _ hkeep hwell ↦ (advances_apply hwell hkeep).wellFormed

theorem epochBound_le_run :
    contract.protocolState.epochBound ≤ (run apply contract calls).protocolState.epochBound :=
  hmeet.chain hwell (fun _ _ hkeep hwell ↦ (advances_apply hwell hkeep).wellFormed)
    (fun before after ↦ before.protocolState.epochBound ≤ after.protocolState.epochBound)
    (fun _ ↦ le_rfl) (fun _ _ _ hfirst hlast ↦ hfirst.trans hlast)
    fun _ _ hkeep hwell ↦ (advances_apply hwell hkeep).bound

theorem entersFreshEpochs_of_stepsMeet : EntersFreshEpochs contract calls := by
  rintro earlier later _ _ rfl epochId hentered former hformer
  rw [stepsMeet_append, stepsMeet_append] at hmeet
  obtain ⟨hearlier, hlater, hcall, -⟩ := hmeet
  have hwellEarlier := wellFormed_run hearlier hwell
  have hwellLater := wellFormed_run hlater hwellEarlier
  rw [run_append, run_append, run_append] at hentered
  calc former
      ≤ (run apply contract earlier).protocolState.epochBound :=
        epochIds_le_epochBound hwellEarlier former hformer
    _ ≤ (run apply (run apply contract earlier) later).protocolState.epochBound :=
        epochBound_le_run hlater hwellEarlier
    _ < epochId := (advances_apply hwellLater hcall).entered epochId hentered

/-- The ids a run starts are distinct and none of them was behind the state it starts from. -/
theorem startedIds_nodup_of_stepsMeet :
    (startedIds contract calls).Nodup ∧
      ∀ id ∈ startedIds contract calls, ¬ contract.protocolState.Passed id := by
  induction calls generalizing contract with
  | nil => exact ⟨List.nodup_nil, by simp [startedIds]⟩
  | cons call rest ih =>
    obtain ⟨hkeep, hrest⟩ := hmeet
    have hadvances := advances_apply hwell hkeep
    obtain ⟨hnodup, hfresh⟩ := ih hrest hadvances.wellFormed
    -- an id started later was not behind the next state, so it is not behind this one
    have hlater : ∀ id ∈ startedIds (contract.apply call) rest,
        ¬ contract.protocolState.Passed id :=
      fun id hid hpassed ↦ hfresh id hid (hadvances.passed id hpassed)
    unfold startedIds
    cases hstarted : contract.startedBy call with
    | none => exact ⟨hnodup, hlater⟩
    | some started =>
      obtain ⟨hnew, hbehind⟩ := startedBy_passed hstarted hwell hkeep
      refine ⟨List.nodup_cons.mpr ⟨fun hmem ↦ hfresh started hmem hbehind, hnodup⟩, ?_⟩
      intro id hid
      rcases List.mem_cons.mp hid with rfl | hid
      · exact hnew
      · exact hlater id hid

end Run

/-! ### A network of two that forgets a cancelled epoch -/

namespace TwoNodes

def secondDomain : DomainConfig := { id := 1, scheme := .secp256k1, purpose := .sign }

def both (method : Method) : List Call := [signedBy "alice" method, signedBy "bob" method]

/-- Both vote for a resharing into epoch 1 and the leader starts its first attempt. -/
def reshare : List Call :=
  both (.voteNewParameters 1 parameters) ++
    [signedBy "alice" (.startReshareInstance { epochId := 1, domainId := 0, attemptId := 0 })]

/-- The resharing is cancelled, a domain is added, and its key generation is cancelled. -/
def forget : List Call :=
  both .voteCancelResharing ++ both (.voteAddDomains [secondDomain]) ++ both (.voteCancelKeygen 2)

end TwoNodes

/-! ### Epoch ids over a whole run -/

open TwoNodes

/-- Epoch ids are never reused along a run that keeps the memory of cancelled resharings: a newly
entered resharing lies above every earlier keyset and resharing, and no key event id is started
twice. -/
theorem epochIds_never_reused {contract : MpcContract} {calls : List Call}
    (hdeployed : Deployed contract) (hmeet : StepsMeet apply KeepsCancelledEpoch contract calls) :
    EntersFreshEpochs contract calls ∧ (startedIds contract calls).Nodup := by
  have hwell := deployed_wellFormed hdeployed
  exact ⟨entersFreshEpochs_of_stepsMeet hmeet hwell, (startedIds_nodup_of_stepsMeet hmeet hwell).1⟩

/-- The resharing is cancelled and voted for again, this time into epoch 2. -/
theorem epochIds_never_reused_witness :
    Deployed network ∧ StepsMeet apply KeepsCancelledEpoch network
        (reshare ++ both .voteCancelResharing ++ both (.voteNewParameters 2 parameters)) ∧
      EntersFreshEpochs network
        (reshare ++ both .voteCancelResharing ++ both (.voteNewParameters 2 parameters)) := by
  have hmeet : StepsMeet apply KeepsCancelledEpoch network
      (reshare ++ both .voteCancelResharing ++ both (.voteNewParameters 2 parameters)) := by
    decide +kernel
  exact ⟨network_deployed, hmeet, (epochIds_never_reused network_deployed hmeet).1⟩

/-- After `forget` the second resharing enters epoch 1 again and restarts its first attempt. -/
theorem epochIds_reused_after_forget :
    Deployed network ∧ ¬ EntersFreshEpochs network (reshare ++ forget ++ reshare) ∧
      ¬ (startedIds network (reshare ++ forget ++ reshare)).Nodup := by
  refine ⟨network_deployed, ?_, by decide +kernel⟩
  intro hfresh
  have hlt : 1 < 1 := hfresh (both (.voteNewParameters 1 parameters))
    ((reshare ++ forget ++ reshare).drop 2 |>.take 8)
    (signedBy "bob" (.voteNewParameters 1 parameters))
    ((reshare ++ forget ++ reshare).drop 11) rfl 1 (by decide +kernel) 1 (by decide +kernel)
  exact absurd hlt (lt_irrefl 1)

end MpcContract

end NearMpc.Contract
