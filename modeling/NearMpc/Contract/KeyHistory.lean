import NearMpc.Contract.KeyAlignment

/-!
# Domains and keys along a run of the contract

Keys are copied between the states of different phases: from a keyset to the keys of a key
generation and back, and from the previous keyset to the reshared keys, one at a time. A domain that
has a key keeps its configuration and its key through all of this (`Keeps`), and a domain id is
handed out at most once, because `next_domain_id` never falls.

`KeysFollow` collects what an earlier state fixes of every later one: it is reflexive and
transitive, and every call from an aligned state extends it. As for the alignment itself, the step
that exhausts the domain ids is excluded (`DomainIdsRemain`).
-/

set_option autoImplicit false

namespace NearMpc.Contract

open Library Library.Outcome RunningContractState

/-! ### What a state holds -/

namespace ProtocolContractState

/-- The registry, in every phase. -/
def registry : ProtocolContractState → DomainRegistry
  | .notInitialized => {}
  | .initializing state => state.domains
  | .running state => state.domains
  | .resharing state => state.previousRunningState.domains

/-- The keys of the domains: those generated so far, or those in use. -/
def keys : ProtocolContractState → Keyset
  | .notInitialized => { epochId := 0, domains := [] }
  | .initializing state => { epochId := state.epochId, domains := state.generatedKeys }
  | .running state => state.keyset
  | .resharing state => state.previousRunningState.keyset

/-- The keys that have been copied to the epoch of a resharing. -/
def resharedKeys : ProtocolContractState → List KeyForDomain
  | .resharing state => state.resharedKeys
  | _ => []

/-- The domain is registered under this configuration and has this key, also where it has been
reshared already. -/
structure Keeps (state : ProtocolContractState) (domain : DomainConfig) (key : PublicKeyExtended) :
    Prop where
  registered : domain ∈ state.registry.domains
  keyed : ∃ entry ∈ state.keys.domains, entry.domainId = domain.id ∧ entry.key = key
  reshared : ∀ entry ∈ state.resharedKeys, entry.domainId = domain.id → entry.key = key

/-- What an earlier state fixes of a later one. -/
structure KeysFollow (earlier later : ProtocolContractState) : Prop where
  nextDomainId : earlier.registry.nextDomainId ≤ later.registry.nextDomainId
  domains : ∀ domain ∈ later.registry.domains,
    domain ∈ earlier.registry.domains ∨ earlier.registry.nextDomainId ≤ domain.id
  keeps : ∀ domain key, earlier.Keeps domain key → later.Keeps domain key

theorem KeysFollow.refl (state : ProtocolContractState) : KeysFollow state state where
  nextDomainId := le_refl _
  domains := fun _ hdomain ↦ .inl hdomain
  keeps := fun _ _ hkeeps ↦ hkeeps

theorem KeysFollow.trans {first middle last} (hfirst : KeysFollow first middle)
    (hlast : KeysFollow middle last) :
    KeysFollow first last where
  nextDomainId := hfirst.nextDomainId.trans hlast.nextDomainId
  domains := by
    intro domain hdomain
    rcases hlast.domains domain hdomain with hmiddle | hnew
    · exact hfirst.domains domain hmiddle
    · exact .inr (hfirst.nextDomainId.trans hnew)
  keeps := fun domain key hkeeps ↦ hlast.keeps domain key (hfirst.keeps domain key hkeeps)

variable {earlier later : ProtocolContractState}

/-- A state with the same registry, at least the same keys, and no reshared keys that disagree. -/
theorem KeysFollow.of_registry_eq (hregistry : later.registry = earlier.registry)
    (hkeys : ∀ domain key, earlier.Keeps domain key →
      ∃ entry ∈ later.keys.domains, entry.domainId = domain.id ∧ entry.key = key)
    (hreshared : ∀ domain key, earlier.Keeps domain key →
      ∀ entry ∈ later.resharedKeys, entry.domainId = domain.id → entry.key = key) :
    KeysFollow earlier later where
  nextDomainId := by rw [hregistry]
  domains := by
    intro _ hdomain
    rw [hregistry] at hdomain
    exact .inl hdomain
  keeps := by
    intro domain key hkeeps
    refine ⟨?_, hkeys domain key hkeeps, hreshared domain key hkeeps⟩
    rw [hregistry]
    exact hkeeps.registered

/-- A state that differs in nothing that concerns the keys. -/
theorem KeysFollow.of_eq (hregistry : later.registry = earlier.registry)
    (hkeys : later.keys = earlier.keys)
    (hreshared : ∀ entry ∈ later.resharedKeys, entry ∈ earlier.resharedKeys) :
    KeysFollow earlier later := by
  refine .of_registry_eq hregistry (fun domain key hkeeps ↦ ?_) ?_
  · rw [hkeys]
    exact hkeeps.keyed
  · intro _ _ hkeeps entry hentry
    exact hkeeps.reshared entry (hreshared entry hentry)

end ProtocolContractState

/-! ### What alignment says of keys -/

variable {registry : DomainRegistry}

theorem DomainRegistry.Ordered.nodup_ids (hordered : registry.Ordered) :
    (registry.domains.map fun domain ↦ domain.id).Nodup :=
  List.pairwise_map.mpr (hordered.increasing.imp fun hlt ↦ hlt.ne)

/-- A registered id belongs to one domain. -/
theorem DomainRegistry.Ordered.eq_of_id_eq (hordered : registry.Ordered) {first second}
    (hfirst : first ∈ registry.domains) (hsecond : second ∈ registry.domains)
    (hid : first.id = second.id) : first = second :=
  List.inj_on_of_nodup_map hordered.nodup_ids hfirst hsecond hid

namespace KeysOfFirst

variable {keys : List KeyForDomain} {registry : DomainRegistry}

/-- A domain has one key. -/
theorem eq_of_domainId_eq (hkeys : KeysOfFirst keys registry) (hordered : registry.Ordered)
    {first second} (hfirst : first ∈ keys) (hsecond : second ∈ keys)
    (hid : first.domainId = second.domainId) : first = second := by
  have hnodup : (keys.map fun key ↦ key.domainId).Nodup :=
    hordered.nodup_ids.sublist (List.IsPrefix.sublist hkeys)
  exact List.inj_on_of_nodup_map hnodup hfirst hsecond hid

/-- A domain that has a key is among the first ones. -/
theorem mem_retainDomains (hkeys : KeysOfFirst keys registry) (hordered : registry.Ordered) {domain}
    (hdomain : domain ∈ registry.domains) {key} (hkey : key ∈ keys) (hid : key.domainId = domain.id)
    :
    domain ∈ (registry.retainDomains keys.length).domains := by
  have hids : key.domainId ∈
      (registry.retainDomains keys.length).domains.map fun domain ↦ domain.id := by
    rw [← hkeys.retainDomains]
    exact List.mem_map_of_mem hkey
  obtain ⟨retained, hretained, hretainedId⟩ := List.mem_map.mp hids
  have hregistered : retained ∈ registry.domains := List.mem_of_mem_take hretained
  have hsame : retained = domain := hordered.eq_of_id_eq hregistered hdomain (hretainedId.trans hid)
  exact hsame ▸ hretained

end KeysOfFirst

variable {running : RunningContractState}

theorem RunningContractState.Aligned.keysOfFirst (haligned : running.Aligned) :
    KeysOfFirst running.keyset.domains running.domains := by
  unfold KeysOfFirst
  rw [haligned.keys]

variable {state : ResharingContractState} {previousKey : KeyForDomain}

section

variable (haligned : state.Aligned)
  (hprev : state.previousRunningState.keyset.domains[state.resharedKeys.length]? = some previousKey)
include haligned hprev

/-- The key that is looked up for the domain at work is the key of that domain. -/
theorem ResharingContractState.Aligned.domainId_previousKey :
    previousKey.domainId = state.resharingKey.domain.id := by
  have hkey := congrArg (Option.map fun key : KeyForDomain ↦ key.domainId) hprev
  have hdomain := congrArg (Option.map fun domain : DomainConfig ↦ domain.id) haligned.current
  rw [← List.getElem?_map, haligned.previous.keys] at hkey
  rw [DomainRegistry.getDomainByIndex, ← List.getElem?_map, hkey] at hdomain
  exact Option.some_inj.mp hdomain

/-- The reshared copy of a key that a domain keeps is the same key. -/
theorem ResharingContractState.Aligned.key_eq_previousKey {domain key}
    (hkeeps : (ProtocolContractState.resharing state).Keeps domain key)
    (hid : state.resharingKey.domain.id = domain.id) : previousKey.key = key := by
  obtain ⟨entry, hentry, hentryId, hentryKey⟩ := hkeeps.keyed
  have hsame : previousKey = entry := by
    refine haligned.previous.keysOfFirst.eq_of_domainId_eq haligned.previous.ordered
      (List.mem_of_getElem? hprev) hentry ?_
    rw [haligned.domainId_previousKey hprev, hid, hentryId]
  rw [hsame, hentryKey]

end

/-! ### Steps -/

namespace ProtocolContractState

theorem keysFollow_adopt {after} (hnone : running.domains.getDomainByIndex 0 = none)
    (hdomains : after.domains = running.domains) :
    KeysFollow (.running running) (.running after) := by
  have hempty : running.domains.domains = [] := by
    simpa [DomainRegistry.getDomainByIndex] using hnone
  refine .of_registry_eq hdomains (fun domain key hkeeps ↦ ?_) ?_
  · have hdomain : domain ∈ running.domains.domains := hkeeps.registered
    rw [hempty] at hdomain
    exact absurd hdomain List.not_mem_nil
  · intro _ _ _ _ hentry
    exact absurd hentry List.not_mem_nil

/-- New domains get ids from `next_domain_id` on. -/
theorem keysFollow_addDomains {domains newDomains event} (haligned : running.Aligned)
    (hadd : running.domains.addDomains domains = .ok newDomains)
    (hlimit : running.domains.nextDomainId + domains.length < counterLimit) :
    KeysFollow (.running running) (.initializing
      { generatedKeys := running.keyset.domains
        domains := newDomains
        epochId := running.keyset.epochId
        generatingKey := event
        cancelVotes := ∅ }) := by
  obtain ⟨hordered, hdomains, _, hfirst⟩ :=
    DomainRegistry.addDomains_eq_ok hadd haligned.ordered hlimit
  constructor
  · change running.domains.nextDomainId ≤ newDomains.nextDomainId
    omega
  · intro domain hdomain
    change domain ∈ newDomains.domains at hdomain
    rw [hdomains] at hdomain
    rcases List.mem_append.mp hdomain with hold | hnew
    · exact .inl hold
    · -- the first new id is `next_domain_id`, and the ids after it are higher
      refine .inr ?_
      change running.domains.nextDomainId ≤ domain.id
      cases domains with
      | nil => exact absurd hnew List.not_mem_nil
      | cons first =>
        have hfirstId : first.id = running.domains.nextDomainId := hfirst first rfl
        have hincreasing := hordered.increasing
        rw [hdomains, List.pairwise_append] at hincreasing
        rcases List.mem_cons.mp hnew with rfl | hrest
        · exact hfirstId.ge
        · have hlt : first.id < domain.id := List.rel_of_pairwise_cons hincreasing.2.1 hrest
          lia
  · intro domain _ hkeeps
    refine ⟨?_, hkeeps.keyed, fun entry hentry ↦ absurd hentry List.not_mem_nil⟩
    change domain ∈ newDomains.domains
    rw [hdomains]
    exact List.mem_append_left _ hkeeps.registered

/-- Further keys leave the keys that there are alone. -/
theorem keysFollow_generated {state key later} (hregistry : later.registry = state.domains)
    (hkeys : later.keys.domains = state.generatedKeys ++ [key])
    (hreshared : later.resharedKeys = []) : KeysFollow (.initializing state) later := by
  refine .of_registry_eq hregistry (fun domain publicKey hkeeps ↦ ?_) ?_
  · obtain ⟨entry, hentry, hentryKey⟩ := hkeeps.keyed
    refine ⟨entry, ?_, hentryKey⟩
    rw [hkeys]
    exact List.mem_append_left _ hentry
  · intro _ _ _ _ hentry
    rw [hreshared] at hentry
    exact absurd hentry List.not_mem_nil

/-- A cancelled key generation drops domains without a key only. -/
theorem keysFollow_cancelKeygen {state} (haligned : state.Aligned) :
    KeysFollow (.initializing state) (.running (new
      (state.domains.retainDomains state.generatedKeys.length)
      { epochId := state.epochId, domains := state.generatedKeys }
      state.generatingKey.parameters {})) where
  nextDomainId := le_refl _
  domains := fun domain hdomain ↦ .inl (List.mem_of_mem_take hdomain)
  keeps := by
    intro _ _ hkeeps
    obtain ⟨entry, hentry, hid, hkey⟩ := hkeeps.keyed
    exact ⟨haligned.keys.mem_retainDomains haligned.ordered hkeeps.registered hentry hid,
      ⟨entry, hentry, hid, hkey⟩, fun _ hnone ↦ absurd hnone List.not_mem_nil⟩

section ResharedKey

variable {reshared : KeyForDomain} {event : KeyEvent} {epochId : EpochId}
  {parameters : ThresholdParameters} {votes : AddDomainsVotes} (haligned : state.Aligned)
  (hprev : state.previousRunningState.keyset.domains[state.resharedKeys.length]? = some previousKey)
  (hid : reshared.domainId = state.resharingKey.domain.id) (hkey : reshared.key = previousKey.key)
include haligned hprev hid hkey

theorem keysFollow_resharedKey :
    KeysFollow (.resharing state) (.resharing { state with
      resharedKeys := state.resharedKeys ++ [reshared]
      resharingKey := event }) := by
  refine .of_registry_eq rfl (fun domain key hkeeps ↦ hkeeps.keyed) ?_
  intro _ _ hkeeps entry hentry hentryId
  rcases List.mem_append.mp hentry with hold | hnew
  · exact hkeeps.reshared entry hold hentryId
  · obtain rfl : entry = reshared := List.mem_singleton.mp hnew
    rw [hkey]
    exact haligned.key_eq_previousKey hprev hkeeps (hid.symm.trans hentryId)

/-- When all keys have been reshared, every domain has its old key in the new epoch. -/
theorem keysFollow_resharedAllKeys
    (hafter : Aligned (.running (new state.previousRunningState.domains
      { epochId, domains := state.resharedKeys ++ [reshared] } parameters votes))) :
    KeysFollow (.resharing state) (.running (new
      state.previousRunningState.domains
      { epochId, domains := state.resharedKeys ++ [reshared] } parameters votes)) := by
  refine .of_registry_eq rfl (fun domain key hkeeps ↦ ?_) ?_
  · have hids : domain.id ∈ (state.resharedKeys ++ [reshared]).map fun key ↦ key.domainId := by
      have hkeys := RunningContractState.Aligned.keys hafter
      change (state.resharedKeys ++ [reshared]).map _ =
        state.previousRunningState.domains.domains.map _ at hkeys
      rw [hkeys]
      exact List.mem_map_of_mem hkeeps.registered
    obtain ⟨entry, hentry, hentryId⟩ := List.mem_map.mp hids
    refine ⟨entry, hentry, hentryId, ?_⟩
    rcases List.mem_append.mp hentry with hold | hnew
    · exact hkeeps.reshared entry hold hentryId
    · obtain rfl : entry = reshared := List.mem_singleton.mp hnew
      rw [hkey]
      exact haligned.key_eq_previousKey hprev hkeeps (hid.symm.trans hentryId)
  · intro _ _ _ _ hentry
    exact absurd hentry List.not_mem_nil

end ResharedKey

end ProtocolContractState

namespace MpcContract

open ProtocolContractState

variable {contract : MpcContract}

theorem keysFollow_of_stateChange {call timeoutBlocks after}
    (hchange : StateChange call timeoutBlocks contract.protocolState after)
    (haligned : contract.protocolState.Aligned) (hremain : contract.DomainIdsRemain call) :
    KeysFollow contract.protocolState after := by
  have hafter := aligned_of_stateChange hchange haligned hremain
  unfold DomainIdsRemain at hremain
  generalize contract.protocolState = before at hchange haligned hremain
  have hnone : ∀ entry ∈ ([] : List KeyForDomain), entry ∈ before.resharedKeys :=
    fun _ hentry ↦ absurd hentry List.not_mem_nil
  cases hchange with
  | unchanged => exact .refl _
  | migrated | votedDomains | keygenProgress | votedCancelKeygen | cancelResharing =>
    exact .of_eq rfl rfl hnone
  | votedParameters _ _ _ _ hvote =>
    obtain ⟨-, -, -, rfl, -⟩ := processNewParametersProposal_cases hvote
    exact .of_eq rfl rfl hnone
  | reshare _ _ hagreed =>
    obtain ⟨-, -, _, rfl⟩ := hagreed.validated
    exact .of_eq rfl rfl hnone
  | adopt _ hagreed hempty =>
    obtain ⟨-, -, _, rfl⟩ := hagreed.validated
    exact keysFollow_adopt hempty rfl
  | addDomains _ _ _ hmethod hcompletes hadd =>
    simp only [hmethod] at hremain
    exact keysFollow_addDomains haligned hadd (hremain hcompletes)
  | generatedKey | generatedAllKeys => exact keysFollow_generated rfl rfl rfl
  | cancelKeygen => exact keysFollow_cancelKeygen haligned
  | reshareProgress | votedCancelResharing => exact .of_eq rfl rfl fun _ hentry ↦ hentry
  | resharedKey _ _ _ _ hprev hvote =>
    exact keysFollow_resharedKey haligned hprev (KeyEvent.voteSuccess_eq_ok hvote).2.2 rfl
  | resharedAllKeys _ _ _ hprev hvote =>
    exact keysFollow_resharedAllKeys haligned hprev (KeyEvent.voteSuccess_eq_ok hvote).2.2 rfl
      hafter
  | votedReproposal _ _ _ _ _ hvote =>
    obtain ⟨-, -, -, rfl, -⟩ := processNewParametersProposal_cases hvote
    exact .of_eq rfl rfl fun _ hentry ↦ hentry
  | supersede _ _ _ _ _ _ hvote =>
    obtain ⟨-, -, -, rfl, -⟩ := processNewParametersProposal_cases hvote
    exact .of_eq rfl rfl hnone

/-! ### Runs -/

theorem keysFollow_run {calls} (haligned : contract.protocolState.Aligned)
    (hmeet : StepsMeet apply DomainIdsRemain contract calls) :
    KeysFollow contract.protocolState (run apply contract calls).protocolState :=
  hmeet.chain haligned
    (fun state call hremain haligned ↦
      aligned_of_stateChange (state.stateChange_apply call) haligned hremain)
    (fun before after ↦ KeysFollow before.protocolState after.protocolState)
    (fun _ ↦ .refl _) (fun _ _ _ hfirst hlast ↦ hfirst.trans hlast)
    fun state call hremain haligned ↦
      keysFollow_of_stateChange (state.stateChange_apply call) haligned hremain

end MpcContract

/-! ### Looking domains and keys up -/

namespace ProtocolContractState

/-- The lookups of the contract find the configuration and the key of the domain, and so does one
among the reshared keys, once the key has been reshared. -/
structure Finds (state : ProtocolContractState) (domain : DomainConfig) (key : PublicKeyExtended) :
    Prop where
  configuration : state.registry.getDomainByDomainId domain.id = some domain
  publicKey : state.keys.publicKey domain.id = .ok key
  reshared : ∀ entry ∈ state.resharedKeys, entry.domainId = domain.id → entry.key = key

variable {state : ProtocolContractState}

theorem Aligned.registry_ordered (haligned : state.Aligned) : state.registry.Ordered := by
  cases state with
  | notInitialized => exact DomainRegistry.ordered_default
  | initializing => exact InitializingContractState.Aligned.ordered haligned
  | running => exact RunningContractState.Aligned.ordered haligned
  | resharing => exact (ResharingContractState.Aligned.previous haligned).ordered

theorem Aligned.keysOfFirst (haligned : state.Aligned) :
    KeysOfFirst state.keys.domains state.registry := by
  cases state with
  | notInitialized => exact KeysOfFirst.nil _
  | initializing => exact InitializingContractState.Aligned.keys haligned
  | running => exact RunningContractState.Aligned.keysOfFirst haligned
  | resharing => exact (ResharingContractState.Aligned.previous haligned).keysOfFirst

/-- In an aligned state the lookups find exactly what there is. -/
theorem Aligned.finds_iff_keeps (haligned : state.Aligned) {domain key} :
    state.Finds domain key ↔ state.Keeps domain key := by
  constructor
  · intro hfinds
    have hkey := hfinds.publicKey
    simp only [Keyset.publicKey, bind_eq_ok, okOr_eq_ok, pure_eq, ok.injEq] at hkey
    obtain ⟨entry, hentry, hentryKey⟩ := hkey
    have hid : entry.domainId = domain.id := by simpa using List.find?_some hentry
    exact ⟨List.mem_of_find?_eq_some hfinds.configuration,
      ⟨entry, List.mem_of_find?_eq_some hentry, hid, hentryKey⟩, hfinds.reshared⟩
  · intro hkeeps
    obtain ⟨entry, hentry, hid, hentryKey⟩ := hkeeps.keyed
    refine ⟨?_, ?_, hkeeps.reshared⟩
    · cases hfind : state.registry.getDomainByDomainId domain.id with
      | none =>
        have hdifferent := List.find?_eq_none.mp hfind domain hkeeps.registered
        simp at hdifferent
      | some found =>
        have hfoundId : found.id = domain.id := by simpa using List.find?_some hfind
        rw [haligned.registry_ordered.eq_of_id_eq (List.mem_of_find?_eq_some hfind)
          hkeeps.registered hfoundId]
    · unfold Keyset.publicKey
      cases hfind : state.keys.domains.find? fun key ↦ key.domainId == domain.id with
      | none =>
        have hdifferent := List.find?_eq_none.mp hfind entry hentry
        simp [hid] at hdifferent
      | some found =>
        have hfoundId : found.domainId = domain.id := by simpa using List.find?_some hfind
        have hsame : found = entry := haligned.keysOfFirst.eq_of_domainId_eq
          haligned.registry_ordered (List.mem_of_find?_eq_some hfind) hentry
          (hfoundId.trans hid.symm)
        rw [hsame, ← hentryKey]
        rfl

end ProtocolContractState

namespace MpcContract

open ProtocolContractState

/-- The ids of the registered domains. -/
def domainIds (contract : MpcContract) : List DomainId :=
  contract.protocolState.registry.domains.map fun domain ↦ domain.id

/-- An id that has been passed over is not handed out later. -/
theorem not_mem_domainIds_of_keysFollow {before middle after : MpcContract}
    (hbefore : before.protocolState.Aligned)
    (hmiddle : KeysFollow before.protocolState middle.protocolState)
    (hafter : KeysFollow middle.protocolState after.protocolState) {id : DomainId}
    (hregistered : id ∈ before.domainIds) (hdropped : id ∉ middle.domainIds) :
    id ∉ after.domainIds := by
  intro hassigned
  obtain ⟨registered, hmem, _⟩ := List.mem_map.mp hregistered
  obtain ⟨assigned, hassignedMem, rfl⟩ := List.mem_map.mp hassigned
  rcases hafter.domains assigned hassignedMem with hkept | hnew
  · exact hdropped (List.mem_map_of_mem hkept)
  · have hbelow := hbefore.registry_ordered.below registered hmem
    have hnext := hmiddle.nextDomainId
    lia

/-- Domain 1 is added and dropped again, then domain 2 is added. -/
def replaceDomain : List Call :=
  LastDomainId.addDomain 1 ++
    ["alice", "bob"].map (TwoNodes.signedBy · (.voteCancelKeygen 2)) ++ LastDomainId.addDomain 2

/-- Along a run that does not exhaust the domain ids, a domain with a key keeps its configuration
and its key, `next_domain_id` does not fall, and the id of a domain that is dropped is not assigned
again. -/
theorem keys_never_changed_or_lost {contract : MpcContract} {earlier later : List Call}
    (hdeployed : Deployed contract)
    (hmeet : StepsMeet apply DomainIdsRemain contract (earlier ++ later)) :
    (∀ domain key, (run apply contract earlier).protocolState.Finds domain key →
      (run apply contract (earlier ++ later)).protocolState.Finds domain key) ∧
    (run apply contract earlier).protocolState.registry.nextDomainId ≤
      (run apply contract (earlier ++ later)).protocolState.registry.nextDomainId ∧
    ∀ call rest id, later = call :: rest → id ∈ (run apply contract earlier).domainIds →
      id ∉ (run apply contract (earlier ++ [call])).domainIds →
        id ∉ (run apply contract (earlier ++ later)).domainIds := by
  have hlast := aligned_run hdeployed hmeet
  rw [stepsMeet_append] at hmeet
  have haligned := aligned_run hdeployed hmeet.1
  have hfollow := keysFollow_run haligned hmeet.2
  rw [run_append] at hlast ⊢
  refine ⟨fun domain key hfinds ↦ ?_, hfollow.nextDomainId, ?_⟩
  · rw [haligned.finds_iff_keeps] at hfinds
    exact hlast.finds_iff_keeps.mpr (hfollow.keeps domain key hfinds)
  · rintro call rest id rfl hregistered hdropped
    obtain ⟨hremain, hrest⟩ := hmeet.2
    rw [run_append] at hdropped
    have hchange := (run apply contract earlier).stateChange_apply call
    have hmiddle := keysFollow_of_stateChange hchange haligned hremain
    have hafter := keysFollow_run (aligned_of_stateChange hchange haligned hremain) hrest
    exact not_mem_domainIds_of_keysFollow haligned hmiddle hafter hregistered hdropped

open TwoNodes in
/-- The key of domain 0 survives the addition of domain 1, its removal and the addition of
domain 2. -/
theorem keys_never_changed_or_lost_replaceDomain :
    StepsMeet apply DomainIdsRemain network ([] ++ replaceDomain) ∧
      (run apply network ([] ++ replaceDomain)).protocolState.Finds firstDomain
        (.secp256k1 "key") := by
  have hmeet : StepsMeet apply DomainIdsRemain network ([] ++ replaceDomain) := by decide +kernel
  have hfinds : network.protocolState.Finds firstDomain (.secp256k1 "key") :=
    ⟨rfl, rfl, fun _ hentry ↦ absurd hentry List.not_mem_nil⟩
  exact ⟨hmeet, (keys_never_changed_or_lost network_deployed hmeet).1 _ _ hfinds⟩

open LastDomainId in
/-- Adding the domain with the last id lets `next_domain_id` fall to zero. -/
theorem nextDomainId_falls_after_last :
    Deployed (network (2 ^ 64 - 1)) ∧
      (run apply (network (2 ^ 64 - 1))
          (addDomain (2 ^ 64 - 1))).protocolState.registry.nextDomainId <
        (network (2 ^ 64 - 1)).protocolState.registry.nextDomainId :=
  ⟨network_deployed _, by decide +kernel⟩

end MpcContract

end NearMpc.Contract
