import NearMpc.Contract.ParameterValidity

/-!
# Votes to add domains along a run

`vote_add_domains` stores the vote of a participant under its id, and generates keys for the domains
once as many votes for the same list are stored as there are participants. The votes outlive a
change of the participants: a resharing keeps them in the running state it left, and the state that
follows it takes over those whose id is among its participants.

Ids are not tied to accounts for ever: a participant that is removed by a proposal with a lower
`next_id` can be followed by another account under its id. The stored votes are safe from this
because they are filtered at every change of the participants, and because one change cannot hand an
id over: `validate_incoming_proposal` numbers new accounts from the `next_id` in force
(`Admits.keepsAccounts`). So no condition on the proposals is needed here.

A run is observed together with the list each account has last voted for (`DomainVoting`).
`CastBy` ties what is stored to what was cast, and it survives every call. When the count reaches
the number of participants, the stored votes are then one of each participant.
-/

set_option autoImplicit false

namespace NearMpc.Contract

open Library Library.Outcome MpcContract
open Std (TreeMap)

/-! ### Participants that keep their ids -/

/-- An id that is in use before and after belongs to the same account. -/
def Participants.KeepsAccounts (before after : Participants) : Prop :=
  ∀ id first second, before.Maps id first → after.Maps id second → second = first

theorem Participants.Valid.keepsAccounts {members : Participants} (hvalid : members.Valid) :
    members.KeepsAccounts members :=
  fun _ _ _ hfirst hsecond ↦ hvalid.account_unique hsecond hfirst

/-- A proposal does not hand the id of a participant to another account. -/
theorem ThresholdParameters.Admits.keepsAccounts {current proposal : ThresholdParameters}
    (hadmits : current.Admits proposal) (hvalid : current.participants.Valid) :
    current.participants.KeepsAccounts proposal.participants := by
  rintro _ _ _ hfirst ⟨entry, hentry, rfl, rfl⟩
  rcases hadmits.entries entry hentry with hold | ⟨-, hnew⟩
  · exact hvalid.account_unique ⟨entry, hold, rfl, rfl⟩ hfirst
  · exact absurd (hvalid.id_lt_nextId hfirst) (Nat.not_lt.mpr hnew)

/-! ### Stored and cast votes -/

namespace AddDomainsVotes

/-- Every stored vote is under the id of a participant whose last vote it is. -/
def CastBy (votes : AddDomainsVotes) (members : Participants)
    (cast : AccountId → Option (List DomainConfig)) : Prop :=
  ∀ id domains, votes.proposalByAccount[id]? = some domains →
    ∃ account, members.Maps id account ∧ cast account = some domains

variable {votes : AddDomainsVotes} {members : Participants}
  {cast : AccountId → Option (List DomainConfig)}

theorem CastBy.empty (members : Participants) (cast : AccountId → Option (List DomainConfig)) :
    CastBy {} members cast := by
  intro _ _ hvote
  simp at hvote

/-- Nothing remains of no votes. -/
theorem CastBy.remaining_empty (later members : Participants)
    (cast : AccountId → Option (List DomainConfig)) :
    (getRemainingVotes {} later).CastBy members cast := by
  intro _ _ hvote
  have hstored := (getElem?_ofList_filter.mp hvote).1
  simp at hstored

section

variable (hcast : votes.CastBy members cast)
include hcast

/-- The votes that remain are those of accounts that stay under their ids. -/
theorem CastBy.remaining {later} (hkeeps : members.KeepsAccounts later) :
    (votes.getRemainingVotes later).CastBy later cast := by
  intro id domains hvote
  obtain ⟨hstored, hmember⟩ := getElem?_ofList_filter.mp hvote
  obtain ⟨account, hmaps, hdomains⟩ := hcast id domains hstored
  obtain ⟨entry, hentry, hid⟩ := List.any_eq_true.mp hmember
  have hlater : later.Maps id entry.1 := ⟨entry, hentry, by simpa using hid, rfl⟩
  exact ⟨account, hkeeps id account entry.1 hmaps hlater ▸ hlater, hdomains⟩

/-- A migration leaves every vote with its account. -/
theorem CastBy.sameIds {later} (hsame : Participants.SameIds members later) :
    votes.CastBy later cast := by
  intro id domains hvote
  obtain ⟨account, hmaps, hdomains⟩ := hcast id domains hvote
  refine ⟨account, ?_, hdomains⟩
  rw [Participants.maps_iff, hsame.accounts]
  exact Participants.maps_iff.mp hmaps

/-- A participant votes. -/
theorem CastBy.vote (hvalid : members.Valid) {participant signer}
    (hsigner : members.Maps participant signer) (domains : List DomainConfig) :
    (votes.vote domains participant).1.CastBy members
      (Function.update cast signer (some domains)) := by
  intro id stored hvote
  change (votes.proposalByAccount.insert participant domains)[id]? = some stored at hvote
  rw [TreeMap.getElem?_insert] at hvote
  by_cases hid : compare participant id = .eq
  · obtain rfl : participant = id := Std.LawfulEqOrd.eq_of_compare hid
    rw [if_pos hid] at hvote
    exact ⟨signer, hsigner, by rw [Function.update_self, hvote]⟩
  · rw [if_neg hid] at hvote
    obtain ⟨account, hmaps, hdomains⟩ := hcast id stored hvote
    have hother : account ≠ signer := by
      rintro rfl
      rw [hvalid.id_unique hsigner hmaps] at hid
      exact hid Std.ReflCmp.compare_self
    exact ⟨account, hmaps, by rw [Function.update_of_ne hother, hdomains]⟩

/-- When as many votes for a list are stored as there are participants, it is the vote of each. -/
theorem CastBy.unanimous (hvalid : members.Valid) {domains}
    (hcount : members.len = votes.proposalByAccount.toList.countP fun vote ↦ vote.2 == domains)
    {id account} (hmaps : members.Maps id account) :
    votes.proposalByAccount[id]? = some domains ∧ cast account = some domains := by
  obtain ⟨voters, hcard, hcounted⟩ := exists_keys_of_countP votes.proposalByAccount
    fun vote ↦ vote.2 == domains
  have hvoters : ∀ voter ∈ voters, votes.proposalByAccount[voter]? = some domains := by
    intro voter hvoter
    obtain ⟨stored, hstored, hsame⟩ := hcounted voter hvoter
    rw [hstored, show stored = domains from eq_of_beq hsame]
  have hmembers : ∀ voter ∈ voters, ∃ account, members.Maps voter account := by
    intro voter hvoter
    obtain ⟨holder, hholder, -⟩ := hcast voter domains (hvoters voter hvoter)
    exact ⟨holder, hholder⟩
  obtain ⟨entry, hentry, rfl, rfl⟩ := hmaps
  have hvoted := (Participants.all_voted_of_card hmembers (hcard.trans hcount.symm) hentry).1
  have hstored := hvoters _ hvoted
  obtain ⟨_, hholder, hdomains⟩ := hcast _ _ hstored
  rw [hvalid.account_unique hholder ⟨entry, hentry, rfl, rfl⟩] at hdomains
  exact ⟨hstored, hdomains⟩

end

end AddDomainsVotes

/-! ### Proposals that are being reshared to -/

namespace ProtocolContractState

/-- The participants being reshared to keep the accounts of the ids in force. -/
def ResharesKeepingAccounts (state : ProtocolContractState) : Prop :=
  ∀ current prospective, state.thresholdParameters = some current →
    state.prospectiveParameters = some prospective →
      current.participants.KeepsAccounts prospective.participants

theorem resharesKeepingAccounts_of_change {method before after}
    (hchange : ParametersChange method before after) (hvalid : before.ParametersValid)
    (hreshares : before.ResharesKeepingAccounts) : after.ResharesKeepingAccounts := by
  intro current prospective hcurrent hprospective
  cases hchange with
  | kept hsame hresharing =>
    rcases hresharing with hsameResharing | ⟨hnone, -⟩
    · exact hreshares current prospective (hsame ▸ hcurrent) (hsameResharing ▸ hprospective)
    · rw [hnone] at hprospective
      cases hprospective
  | proposed inForce proposal _ hadmissible hbefore hafter hproposed =>
    obtain rfl : inForce = current := Option.some_inj.mp (hafter.symm.trans hcurrent)
    obtain rfl : proposal = prospective := Option.some_inj.mp (hproposed.symm.trans hprospective)
    exact (ThresholdParameters.admits_of_validateIncomingProposal hadmissible).keepsAccounts
      (hvalid.current inForce hbefore).participants
  | adopted _ _ _ _ _ _ hnone =>
    cases hnone.symm.trans hprospective
  | completed _ _ _ _ _ hnone =>
    cases hnone.symm.trans hprospective
  | migrated _ _ _ _ _ _ _ hnone =>
    cases hnone.symm.trans hprospective

/-- The votes of the running state, or of the one that a resharing has left. -/
def addDomainsVotes : ProtocolContractState → AddDomainsVotes
  | .running state => state.addDomainsVotes
  | .resharing state => state.previousRunningState.addDomainsVotes
  | _ => {}

end ProtocolContractState

/-! ### Steps -/

/-- The contract with the list of domains that each account has last voted for. -/
structure DomainVoting where
  contract : MpcContract
  cast : AccountId → Option (List DomainConfig)

namespace DomainVoting

open ProtocolContractState

/-- Nobody has voted yet. -/
def start (contract : MpcContract) : DomainVoting := ⟨contract, fun _ ↦ none⟩

variable (voting : DomainVoting) (call : Call)

/-- The votes with that of the call. -/
def castWith : AccountId → Option (List DomainConfig) :=
  match call.method with
  | .voteAddDomains domains =>
      Function.update voting.cast call.env.signerAccountId (some domains)
  | _ => voting.cast

/-- A call that fails casts no vote. -/
def step : DomainVoting :=
  match voting.contract.perform call with
  | .ok next => { contract := next, cast := voting.castWith call }
  | _ => voting

/-- The stored votes are those that the participants have cast. -/
structure Attributed (voting : DomainVoting) : Prop where
  valid : voting.contract.protocolState.ParametersValid
  reshares : voting.contract.protocolState.ResharesKeepingAccounts
  votes : ∀ parameters, voting.contract.protocolState.thresholdParameters = some parameters →
    voting.contract.protocolState.addDomainsVotes.CastBy parameters.participants voting.cast

variable {contract : MpcContract}

theorem attributed_start (hdeployed : MpcContract.Deployed contract) :
    (start contract).Attributed where
  valid := deployed_parametersValid hdeployed
  reshares := by
    obtain ⟨_, _, _, hstate, -⟩ := deployed_cases hdeployed
    intro _ _ _ hprospective
    rw [start, hstate] at hprospective
    cases hprospective
  votes := by
    obtain ⟨_, _, _, hstate, -⟩ := deployed_cases hdeployed
    intro _ _
    rw [start, hstate]
    exact .remaining_empty _ _ _

variable {voting : DomainVoting}

/-- Every call but a vote to add domains leaves the votes to those who cast them. -/
theorem castBy_of_stateChange (hattributed : voting.Attributed) {call timeoutBlocks after}
    (hchange : StateChange call timeoutBlocks voting.contract.protocolState after)
    (hother : ∀ domains, call.method ≠ .voteAddDomains domains) {parameters}
    (hparams : after.thresholdParameters = some parameters) :
    after.addDomainsVotes.CastBy parameters.participants voting.cast := by
  obtain ⟨hvalid, hreshares, hvotes⟩ := hattributed
  generalize voting.contract.protocolState = before at hchange hvalid hreshares hvotes
  cases hchange with
  | unchanged | reshareProgress | resharedKey | votedCancelResharing | cancelResharing =>
    exact hvotes parameters hparams
  | @migrated running updated _ _ hupdated =>
    obtain rfl : updated = parameters := Option.some_inj.mp hparams
    exact (hvotes running.parameters rfl).sameIds (ThresholdParameters.updateInfo_eq_ok hupdated).2
  | votedParameters _ _ _ _ hvote =>
    obtain ⟨-, -, -, rfl, -⟩ := RunningContractState.processNewParametersProposal_cases hvote
    exact hvotes parameters hparams
  | @reshare running _ _ _ hagreed _ =>
    obtain ⟨-, -, _, rfl⟩ := hagreed.validated
    obtain rfl : running.parameters = parameters := Option.some_inj.mp hparams
    exact (hvotes running.parameters rfl).remaining
      (hvalid.current running.parameters rfl).participants.keepsAccounts
  | @adopt running _ proposal hagreed _ =>
    obtain ⟨-, hadmissible, _, rfl⟩ := hagreed.validated
    obtain rfl : proposal = parameters := Option.some_inj.mp hparams
    exact (hvotes running.parameters rfl).remaining
      ((ThresholdParameters.admits_of_validateIncomingProposal hadmissible).keepsAccounts
        (hvalid.current running.parameters rfl).participants)
  | votedDomains domains _ hmethod => exact absurd hmethod (hother domains)
  | addDomains domains _ _ hmethod => exact absurd hmethod (hother domains)
  | keygenProgress | generatedKey | votedCancelKeygen => exact .empty _ _
  | generatedAllKeys | cancelKeygen => exact .remaining_empty _ _ _
  | @resharedAllKeys state resharingKey _ _ _ hvote _ =>
    obtain rfl : resharingKey.parameters = parameters := Option.some_inj.mp hparams
    have hsame := KeyEvent.parameters_of_voteSuccess hvote
    exact (hvotes state.previousRunningState.parameters rfl).remaining
      (hreshares _ _ rfl (congrArg some hsame.symm))
  | votedReproposal _ _ _ _ _ hvote =>
    obtain ⟨-, -, -, rfl, -⟩ := RunningContractState.processNewParametersProposal_cases hvote
    exact hvotes parameters hparams
  | @supersede state _ _ _ _ _ _ hvote _ =>
    obtain ⟨-, -, -, rfl, -⟩ := RunningContractState.processNewParametersProposal_cases hvote
    obtain rfl : state.previousRunningState.parameters = parameters := Option.some_inj.mp hparams
    exact (hvotes state.previousRunningState.parameters rfl).remaining
      (hvalid.current state.previousRunningState.parameters rfl).participants.keepsAccounts

/-- A vote to add domains is stored under the id of its signer, and the key generation begins when
it is the last one that was missing. -/
theorem voteAddDomains_eq_ok {next env domains}
    (hok : contract.voteAddDomains env domains = .ok next) :
    ∃ running participant, contract.protocolState = .running running ∧
      running.parameters.participants.Maps participant env.signerAccountId ∧
      (next.protocolState = .running { running with
          addDomainsVotes := (running.addDomainsVotes.vote domains participant).1 } ∨
        (∃ state, next.protocolState = .initializing state) ∧
          running.parameters.participants.len =
            (running.addDomainsVotes.vote domains participant).2) := by
  simp only [MpcContract.voteAddDomains, bind_eq_ok, pure_eq, ok.injEq] at hok
  obtain ⟨_, hvote, rfl⟩ := hok
  unfold ProtocolContractState.voteAddDomains at hvote
  split at hvote
  next running hstate =>
    simp only [RunningContractState.voteAddDomains, bind_eq_ok, require_eq_ok, exists_const,
      pure_eq, ok.injEq, Prod.exists] at hvote
    obtain ⟨_, _, ⟨-, ⟨⟩, -, participant, hparticipant, hvote⟩, rfl⟩ := hvote
    refine ⟨running, participant, hstate, Participants.maps_of_authenticated hparticipant, ?_⟩
    split_ifs at hvote with hcompletes
    · simp only [bind_eq_ok, ok.injEq, Prod.mk.injEq] at hvote
      obtain ⟨_, -, _, -, -, rfl⟩ := hvote
      exact .inr ⟨⟨_, rfl⟩, hcompletes⟩
    · cases hvote
      exact .inl rfl
  next => cases hvote

theorem attributed_step (hattributed : voting.Attributed) (call : Call) :
    (voting.step call).Attributed := by
  unfold step
  split
  next next hok =>
    have hchange := parametersChange_perform hok
    refine ⟨parametersValid_of_change hchange hattributed.valid,
      resharesKeepingAccounts_of_change hchange hattributed.valid hattributed.reshares,
      fun parameters hparams ↦ ?_⟩
    by_cases hvote : ∃ domains, call.method = .voteAddDomains domains
    · obtain ⟨domains, hmethod⟩ := hvote
      simp only [perform, hmethod] at hok
      obtain ⟨running, _, hstate, hsigner, hnext⟩ := voteAddDomains_eq_ok hok
      simp only [castWith, hmethod]
      rcases hnext with hstored | ⟨⟨state, hentered⟩, -⟩
      · rw [hstored] at hparams ⊢
        obtain rfl : running.parameters = parameters := Option.some_inj.mp hparams
        have hinForce := congrArg thresholdParameters hstate
        have hcast := hattributed.votes running.parameters hinForce
        rw [hstate] at hcast
        exact hcast.vote (hattributed.valid.current _ hinForce).participants hsigner domains
      · rw [hentered]
        exact .empty _ _
    · have hother : ∀ domains, call.method ≠ .voteAddDomains domains :=
        fun domains hmethod ↦ hvote ⟨domains, hmethod⟩
      have hsame : voting.castWith call = voting.cast := by
        unfold castWith
        split
        next domains hmethod => exact absurd hmethod (hother domains)
        next => rfl
      rw [hsame]
      exact castBy_of_stateChange hattributed (stateChange_perform hok) hother hparams
  next => exact hattributed

theorem attributed_run (hdeployed : MpcContract.Deployed contract) (calls : List Call) :
    (run step (start contract) calls).Attributed :=
  run_invariant (attributed_start hdeployed)
    (fun _ call hattributed ↦ attributed_step hattributed call) calls

/-- The call with which key generation begins. -/
theorem voteAddDomains_of_initializing {call state}
    (hentered : (voting.step call).contract.protocolState = .initializing state) :
    (∃ before, voting.contract.protocolState = .initializing before) ∨
      ∃ domains next, call.method = .voteAddDomains domains ∧
        voting.contract.voteAddDomains call.env domains = .ok next ∧
        voting.step call = { contract := next, cast := voting.castWith call } := by
  unfold step at hentered ⊢
  split at hentered
  next next hok =>
    have hchange := stateChange_perform hok
    change next.protocolState = _ at hentered
    rw [hentered] at hchange
    generalize hbefore : voting.contract.protocolState = before at hchange
    cases hchange with
    | unchanged => exact .inl ⟨state, rfl⟩
    | addDomains domains _ _ hmethod =>
      refine .inr ⟨domains, next, hmethod, ?_, rfl⟩
      simpa only [perform, hmethod] using hok
    | keygenProgress | generatedKey | votedCancelKeygen => exact .inl ⟨_, rfl⟩
  next => exact .inl ⟨state, hentered⟩

/-- Every stored vote is under the id of one participant in force, whose last vote it is. -/
def VotesOfParticipants (voting : DomainVoting) : Prop :=
  ∀ (id : ParticipantId) domains,
    voting.contract.protocolState.addDomainsVotes.proposalByAccount[id]? = some domains →
      ∃ parameters account,
        voting.contract.protocolState.thresholdParameters = some parameters ∧
        parameters.participants.Maps id account ∧
        (∀ other, parameters.participants.Maps id other → other = account) ∧
        voting.cast account = some domains

/-- The call begins to generate keys only if it is a vote of a participant with which the stored
votes of all participants in force, which are their last ones, are for the same domains. -/
def EntersUnanimously (voting : DomainVoting) (call : Call) : Prop :=
  ∀ state, (voting.step call).contract.protocolState = .initializing state →
    (∃ before, voting.contract.protocolState = .initializing before) ∨
    ∃ running domains participant, voting.contract.protocolState = .running running ∧
      call.method = .voteAddDomains domains ∧
      running.parameters.participants.Maps participant call.env.signerAccountId ∧
      ∀ id account, running.parameters.participants.Maps id account →
        (running.addDomainsVotes.vote domains participant).1.proposalByAccount[id]? =
          some domains ∧
        (voting.step call).cast account = some domains

theorem Attributed.votesOfParticipants (hattributed : voting.Attributed) :
    voting.VotesOfParticipants := by
  intro id domains hvote
  cases hinForce : voting.contract.protocolState.thresholdParameters with
  | none =>
    cases hstate : voting.contract.protocolState with
    | notInitialized =>
      rw [hstate] at hvote
      simp [addDomainsVotes] at hvote
    | _ =>
      rw [hstate] at hinForce
      cases hinForce
  | some parameters =>
    obtain ⟨account, hmaps, hcast⟩ := hattributed.votes parameters hinForce id domains hvote
    have hvalid := (hattributed.valid.current parameters hinForce).participants
    exact ⟨parameters, account, rfl, hmaps,
      fun other hother ↦ hvalid.account_unique hother hmaps, hcast⟩

theorem Attributed.entersUnanimously (hattributed : voting.Attributed) (call : Call) :
    voting.EntersUnanimously call := by
  intro _ hentered
  refine (voteAddDomains_of_initializing hentered).imp_right ?_
  rintro ⟨domains, _, hmethod, hok, hstep⟩
  rw [hstep] at hentered
  obtain ⟨running, participant, hstate, hsigner, hnext⟩ := voteAddDomains_eq_ok hok
  refine ⟨running, domains, participant, hstate, hmethod, hsigner, fun id account hmaps ↦ ?_⟩
  rcases hnext with hstored | ⟨-, hcount⟩
  · cases hstored.symm.trans hentered
  · have hinForce := congrArg thresholdParameters hstate
    have hvalid := (hattributed.valid.current running.parameters hinForce).participants
    have hcast := hattributed.votes running.parameters hinForce
    rw [hstate] at hcast
    obtain ⟨hvoted, hlast⟩ := (hcast.vote hvalid hsigner domains).unanimous hvalid hcount hmaps
    refine ⟨hvoted, ?_⟩
    simpa only [hstep, castWith, hmethod] using hlast

/-- Along any run the stored votes to add domains are the last votes of participants in force, and
key generation begins only when all of them have voted for the same domains. -/
theorem addDomains_by_every_participant {contract : MpcContract}
    (hdeployed : MpcContract.Deployed contract) (calls : List Call) :
    (run step (start contract) calls).VotesOfParticipants ∧
      ∀ call, (run step (start contract) calls).EntersUnanimously call := by
  have hattributed := attributed_run hdeployed calls
  exact ⟨hattributed.votesOfParticipants, hattributed.entersUnanimously⟩

namespace VotesToAdd

open MpcContract.ThreeAccounts

def domain : DomainConfig := { id := 0, scheme := .secp256k1, purpose := .sign }

/-- The vote of an account to add the domain. -/
def voteToAdd (account : AccountId) : Call :=
  { voteFor 1 (parametersOf 3 []) account with method := .voteAddDomains [domain] }

/-- Carol and alice vote, and carol is removed. -/
def calls : List Call := [voteToAdd "carol", voteToAdd "alice"] ++ removeCarol 3

end VotesToAdd

open VotesToAdd MpcContract.ThreeAccounts in
/-- The vote of bob completes that of alice, which has outlived the removal of carol. -/
theorem addDomains_by_alice_and_bob :
    ∃ running, (run step (start network) calls).contract.protocolState = .running running ∧
      running.parameters.participants.len = 2 ∧
      (∃ state, ((run step (start network) calls).step (voteToAdd "bob")).contract.protocolState =
        .initializing state) ∧
      (run step (start network) calls).VotesOfParticipants ∧
      (run step (start network) calls).EntersUnanimously (voteToAdd "bob") := by
  obtain ⟨hvotes, henters⟩ := addDomains_by_every_participant network_deployed calls
  exact ⟨_, rfl, rfl, ⟨_, rfl⟩, hvotes, henters _⟩

end DomainVoting

end NearMpc.Contract
