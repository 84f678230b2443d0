import NearMpc.Contract.EpochIds
import NearMpc.Contract.ParameterValidity

/-!
# Consent to a resharing

A vote for new parameters is stored under the account of its signer, in the running state or, during
a resharing, in the running state that the resharing keeps. It is replaced by the account's next
vote, and all votes are dropped when the state is rebuilt. The votes that stand in a state have
therefore been cast in one voting round: that of the prospective epoch id which a vote has to name.
A cancelled resharing hands its votes to the running state, and the epoch id to name stays the same.

`Casts` says that a call casts an account's vote for a proposal and is admitted: the account is a
proposed participant, and a current one unless `threshold` current participants have the same vote
standing already. `VoteStands` is the history of a standing vote: some earlier call has cast it, and
in every state since then it has stood, in the same round and with the same participants and
threshold in force (`SameRound`).

The proposal is reshared to when as many votes for it stand as it has participants. Only proposed
participants can have it as their vote, so then all of them do.
-/

set_option autoImplicit false

namespace NearMpc.Contract

open Library Library.Outcome ThresholdParametersVotes RunningContractState
open Std (TreeMap)

/-! ### Votes of a state -/

variable {after : ProtocolContractState}

namespace ProtocolContractState

/-- The running state that votes for parameters are stored in. -/
def votingState : ProtocolContractState → Option RunningContractState
  | .running state => some state
  | .resharing state => some state.previousRunningState
  | _ => none

variable (state : ProtocolContractState) (account : AccountId)

/-- The vote for parameters that an account has standing. -/
def standingVote : Option ThresholdParameters :=
  state.votingState.bind fun running ↦ running.parametersVotes.proposalByAccount[account]?

/-- The epoch id that a vote has to name. -/
def votingRound : ProtocolContractState → Option EpochId
  | .running state => some state.prospectiveEpochId
  | .resharing state => some (EpochId.next state.prospectiveEpochId)
  | _ => none

/-- The account may vote for the proposal: it is a proposed participant, and a current one unless
`threshold` current participants have voted for the proposal. -/
def Admits (proposal : ThresholdParameters) : Prop :=
  ∃ current, state.thresholdParameters = some current ∧
    proposal.participants.isParticipantGivenAccountId account = true ∧
    (current.participants.isParticipantGivenAccountId account = true ∨
      ∃ voters : Finset AccountId, current.threshold ≤ voters.card ∧
        ∀ voter ∈ voters, current.participants.isParticipantGivenAccountId voter = true ∧
          state.standingVote voter = some proposal)

/-- Two states of one voting round, with the same participants and threshold in force. -/
structure SameRound (before after : ProtocolContractState) : Prop where
  round : after.votingRound = before.votingRound
  parameters : ∀ current, before.thresholdParameters = some current →
    ∃ later, after.thresholdParameters = some later ∧ later.threshold = current.threshold ∧
      Participants.SameIds current.participants later.participants

theorem SameRound.of_eq {before} (hround : after.votingRound = before.votingRound)
    (hparams : after.thresholdParameters = before.thresholdParameters) :
    SameRound before after where
  round := hround
  parameters := fun current hcurrent ↦ ⟨current, hparams.trans hcurrent, rfl, rfl, rfl⟩

theorem SameRound.trans {first middle last} (hfirst : SameRound first middle)
    (hlast : SameRound middle last) : SameRound first last where
  round := hlast.round.trans hfirst.round
  parameters := by
    intro current hcurrent
    obtain ⟨between, hbetween, hthreshold, hids⟩ := hfirst.parameters current hcurrent
    obtain ⟨later, hlater, hlaterThreshold, hlaterIds⟩ := hlast.parameters between hbetween
    exact ⟨later, hlater, hlaterThreshold.trans hthreshold,
      hlaterIds.nextId.trans hids.nextId, hlaterIds.accounts.trans hids.accounts⟩

end ProtocolContractState

variable (votes : ThresholdParametersVotes) (proposal : ThresholdParameters)

/-- As many current participants as are counted have voted for the proposal. -/
theorem ThresholdParametersVotes.exists_voters (participants : Participants) :
    ∃ voters : Finset AccountId, voters.card = votes.nVotes proposal participants ∧
      ∀ voter ∈ voters, participants.isParticipantGivenAccountId voter = true ∧
        votes.proposalByAccount[voter]? = some proposal := by
  obtain ⟨voters, hcard, hvoters⟩ := exists_keys_of_countP votes.proposalByAccount fun vote ↦
    participants.isParticipantGivenAccountId vote.1 && vote.2 == proposal
  refine ⟨voters, hcard, fun voter hvoter ↦ ?_⟩
  obtain ⟨_, hvoted, hcounted⟩ := hvoters voter hvoter
  rw [Bool.and_eq_true, beq_iff_eq] at hcounted
  exact ⟨hcounted.1, hvoted.trans (congrArg some hcounted.2)⟩

theorem ThresholdParametersVotes.getElem?_vote (voter account : AccountId) :
    (votes.vote proposal voter).1.proposalByAccount[account]? =
      if account = voter then some proposal else votes.proposalByAccount[account]? := by
  simp only [vote, TreeMap.getElem?_insert]
  by_cases hsame : account = voter
  · rw [if_pos hsame, hsame, if_pos Std.ReflCmp.compare_self]
  · rw [if_neg hsame, if_neg]
    exact fun heq ↦ hsame (Std.LawfulEqCmp.eq_of_compare heq).symm

/-! ### What a call does to the votes -/

namespace MpcContract

open ProtocolContractState

/-- The call casts the vote of the account for the proposal in the current round, and the vote is
admitted. -/
structure Casts (contract : MpcContract) (call : Call) (account : AccountId)
    (proposal : ThresholdParameters) : Prop where
  signer : call.env.signerAccountId = account
  method : ∃ epochId, call.method = .voteNewParameters epochId proposal ∧
    contract.protocolState.votingRound = some epochId
  admitted : contract.protocolState.Admits account proposal

end MpcContract

namespace ProtocolContractState

variable {state : ProtocolContractState}

/-- A vote that passes the checks of `process_new_parameters_proposal` is admitted. -/
theorem admits_of_vote {running after env proposal accepted}
    (hstate : state.votingState = some running)
    (hcurrent : state.thresholdParameters = some running.parameters)
    (hvote : running.processNewParametersProposal env proposal = .ok (after, accepted)) :
    state.Admits env.signerAccountId proposal := by
  obtain ⟨-, hproposed, hadmitted, -, -⟩ :=
    processNewParametersProposal_cases hvote
  refine ⟨running.parameters, hcurrent, hproposed, ?_⟩
  rcases hadmitted with hmember | hthreshold
  · exact .inl hmember
  · obtain ⟨voters, _, hvoters⟩ := running.parametersVotes.exists_voters proposal
      running.parameters.participants
    refine .inr ⟨voters, by omega, fun voter hvoter ↦ ⟨(hvoters voter hvoter).1, ?_⟩⟩
    rw [standingVote, hstate]
    exact (hvoters voter hvoter).2

/-- The vote of one account is the proposal, and the votes of the others are what they were. -/
theorem standingVote_of_vote {before : ProtocolContractState} {running voted : RunningContractState}
    {env : Env} {proposal : ThresholdParameters} {accepted : Bool}
    (hbefore : before.votingState = some running) (hafter : after.votingState = some voted)
    (hvote : running.processNewParametersProposal env proposal = .ok (voted, accepted))
    (account : AccountId) :
    after.standingVote account =
      if account = env.signerAccountId then some proposal else before.standingVote account := by
  obtain ⟨-, -, -, rfl, -⟩ := processNewParametersProposal_cases hvote
  rw [standingVote, standingVote, hbefore, hafter, Option.bind_some, Option.bind_some]
  exact getElem?_vote _ _ _ _

/-- A state that has been rebuilt has no votes. -/
theorem standingVote_new {domains keyset parameters votes}
    (hstate : state.votingState = some (new domains keyset parameters votes))
    (account : AccountId) :
    state.standingVote account = none := by
  rw [standingVote, hstate]
  rfl

end ProtocolContractState

namespace MpcContract

open ProtocolContractState

variable {contract : MpcContract}

/-- A vote that stands after a call stood before it, or the call has cast it. Either way the round
goes on. -/
theorem standingVote_of_stateChange {call : Call} {timeoutBlocks : ℕ}
    (hchange : StateChange call timeoutBlocks contract.protocolState after) {account : AccountId}
    {proposal : ThresholdParameters} (hstands : after.standingVote account = some proposal) :
    SameRound contract.protocolState after ∧
      (contract.protocolState.standingVote account = some proposal ∨
        contract.Casts call account proposal) := by
  generalize hbefore : contract.protocolState = before at hchange
  -- what a vote in the running state or in the one kept by a resharing does
  have hvoted : ∀ {running voted : RunningContractState} {epochId : EpochId}
      {voteFor : ThresholdParameters}, call.method = .voteNewParameters epochId voteFor →
      before.votingRound = some epochId → before.votingState = some running →
      before.thresholdParameters = some running.parameters → after.votingState = some voted →
      running.processNewParametersProposal call.env voteFor = .ok (voted, false) →
      before.standingVote account = some proposal ∨ contract.Casts call account proposal := by
    intro _ _ epochId voteFor hmethod hround hstate hcurrent hafter hvote
    rw [standingVote_of_vote hstate hafter hvote] at hstands
    by_cases hsigner : account = call.env.signerAccountId
    · rw [if_pos hsigner] at hstands
      obtain rfl : voteFor = proposal := Option.some_inj.mp hstands
      have hadmits := admits_of_vote hstate hcurrent hvote
      rw [← hsigner, ← hbefore] at hadmits
      exact .inr ⟨hsigner.symm, ⟨epochId, hmethod, hbefore ▸ hround⟩, hadmits⟩
    · rw [if_neg hsigner] at hstands
      exact .inl hstands
  cases hchange with
  | unchanged | votedDomains | votedCancelResharing | cancelResharing =>
    exact ⟨SameRound.of_eq rfl rfl, .inl hstands⟩
  | @migrated running parameters _ _ hupdated =>
    obtain ⟨hthreshold, hids⟩ := ThresholdParameters.updateInfo_eq_ok hupdated
    refine ⟨⟨rfl, ?_⟩, .inl hstands⟩
    intro current hcurrent
    obtain rfl : running.parameters = current := Option.some_inj.mp hcurrent
    exact ⟨parameters, rfl, hthreshold, hids⟩
  | votedParameters _ _ hmethod hepoch hvote =>
    refine ⟨?_, hvoted hmethod (congrArg some hepoch.symm) rfl rfl rfl hvote⟩
    obtain ⟨-, -, -, rfl, -⟩ := processNewParametersProposal_cases hvote
    exact SameRound.of_eq rfl rfl
  | reshare | adopt | generatedAllKeys | cancelKeygen | resharedAllKeys | supersede =>
    exact absurd hstands (by rw [standingVote_new rfl]; simp)
  | addDomains | keygenProgress | generatedKey | votedCancelKeygen => cases hstands
  | reshareProgress _ hprogress =>
    have hround := congrArg (fun epochId ↦ some (EpochId.next epochId)) hprogress.epochId
    exact ⟨SameRound.of_eq hround rfl, .inl hstands⟩
  | resharedKey _ _ _ _ _ hvote =>
    have hround := congrArg (fun epochId ↦ some (EpochId.next epochId))
      (KeyEvent.voteSuccess_eq_ok hvote).1.epochId
    exact ⟨SameRound.of_eq hround rfl, .inl hstands⟩
  | votedReproposal _ _ _ hmethod hepoch hvote =>
    refine ⟨?_, hvoted hmethod (congrArg some hepoch.symm) rfl rfl rfl hvote⟩
    obtain ⟨-, -, -, rfl, -⟩ := processNewParametersProposal_cases hvote
    exact SameRound.of_eq rfl rfl

/-! ### The history of a standing vote -/

/-- Some call of the run has cast the vote, and it has stood in every state since, in the same
round. -/
def VoteStands (contract : MpcContract) (calls : List Call) (account : AccountId)
    (proposal : ThresholdParameters) : Prop :=
  Since apply (fun state call ↦ state.Casts call account proposal)
    (fun first last ↦ last.protocolState.standingVote account = some proposal ∧
      SameRound first.protocolState last.protocolState)
    contract calls

/-- Every standing vote of a reachable state has been cast by a call of its round. -/
theorem voteStands_of_standingVote (hdeployed : Deployed contract) (calls : List Call)
    {account proposal}
    (hstands : (run apply contract calls).protocolState.standingVote account = some proposal) :
    contract.VoteStands calls account proposal := by
  have hfresh : contract.protocolState.standingVote account ≠ some proposal := by
    obtain ⟨_, _, _, hstate, -⟩ := deployed_cases hdeployed
    rw [hstate, standingVote_new rfl]
    exact (Option.some_ne_none proposal).symm
  exact since_run
    (fun state : MpcContract ↦ state.protocolState.standingVote account = some proposal)
    (fun first last ↦ SameRound first.protocolState last.protocolState) hfresh
    (fun _ _ _ hfirst hlast ↦ hfirst.trans hlast)
    (fun state call hafter ↦ standingVote_of_stateChange (state.stateChange_apply call) hafter)
    calls hstands

end MpcContract

/-! ### Consent -/

/-- When the vote that is cast completes the proposal, all its participants have voted for it,
provided that nobody else can have. -/
theorem RunningContractState.all_voted_of_accepted {running after : RunningContractState}
    {env : Env} {proposal : ThresholdParameters}
    (hvote : running.processNewParametersProposal env proposal = .ok (after, true))
    (hproposed : ∀ account, running.parametersVotes.proposalByAccount[account]? = some proposal →
      proposal.participants.isParticipantGivenAccountId account = true)
    {entry : ParticipantEntry} (hentry : entry ∈ proposal.participants.participants) :
    entry.1 = env.signerAccountId ∨
      running.parametersVotes.proposalByAccount[entry.1]? = some proposal := by
  obtain ⟨hvalid, hsigner, -, -, haccepted⟩ := processNewParametersProposal_cases hvote
  have hcount := of_decide_eq_true haccepted.symm
  have hnodup :=
    (ThresholdParameters.valid_of_validateIncomingProposal hvalid).participants.accounts
  obtain ⟨voters, hcard, hvoters⟩ := exists_keys_of_countP_eq
    (running.parametersVotes.vote proposal env.signerAccountId).1.proposalByAccount proposal
  have hsubset :
      voters ⊆ (proposal.participants.participants.map fun entry ↦ entry.1).toFinset := by
    intro voter hvoter
    have hstanding := hvoters voter hvoter
    rw [getElem?_vote] at hstanding
    have hmember : proposal.participants.isParticipantGivenAccountId voter = true := by
      by_cases hself : voter = env.signerAccountId
      · rw [hself]
        exact hsigner
      · rw [if_neg hself] at hstanding
        exact hproposed voter hstanding
    obtain ⟨_, hentry, hname⟩ := List.any_eq_true.mp hmember
    rw [List.mem_toFinset, ← eq_of_beq hname]
    exact List.mem_map_of_mem hentry
  have hall : voters = (proposal.participants.participants.map fun entry ↦ entry.1).toFinset := by
    refine Finset.eq_of_subset_of_card_le hsubset ?_
    rw [List.toFinset_card_of_nodup hnodup, List.length_map, hcard]
    exact hcount.le
  have hstanding : (running.parametersVotes.vote proposal
      env.signerAccountId).1.proposalByAccount[entry.1]? = some proposal := by
    refine hvoters entry.1 ?_
    rw [hall, List.mem_toFinset]
    exact List.mem_map_of_mem hentry
  rw [getElem?_vote] at hstanding
  by_cases hself : entry.1 = env.signerAccountId
  · exact .inl hself
  · rw [if_neg hself] at hstanding
    exact .inr hstanding

namespace MpcContract

open ProtocolContractState

variable {contract : MpcContract}

/-- What it takes to move to a resharing by vote: the vote of the last call completes the votes for
its proposal. -/
theorem accepted_of_resharingEntered {call timeoutBlocks}
    (hchange : StateChange call timeoutBlocks contract.protocolState after) {epochId proposal}
    (hmethod : call.method = .voteNewParameters epochId proposal)
    (hentered : (resharingEntered contract.protocolState after).isSome = true) :
    after.prospectiveParameters = some proposal ∧
      contract.protocolState.votingRound = some epochId ∧
      ∃ running voted, contract.protocolState.votingState = some running ∧
        contract.protocolState.thresholdParameters = some running.parameters ∧
        running.processNewParametersProposal call.env proposal = .ok (voted, true) := by
  generalize contract.protocolState = before at hchange hentered
  cases hchange with
  | reshare _ _ hagreed =>
    cases hagreed with
    | voted _ hcall hepoch hvote =>
      obtain ⟨rfl, rfl⟩ := Method.voteNewParameters.inj (hmethod.symm.trans hcall)
      exact ⟨rfl, congrArg some hepoch.symm, _, _, rfl, rfl, hvote⟩
    | removed hcall =>
      rw [hmethod] at hcall
      cases hcall
  | supersede _ _ _ _ hcall hepoch hvote =>
    obtain ⟨rfl, rfl⟩ := Method.voteNewParameters.inj (hmethod.symm.trans hcall)
    exact ⟨rfl, congrArg some hepoch.symm, _, _, rfl, rfl, hvote⟩
  | unchanged => cases after <;> simp [resharingEntered] at hentered
  | reshareProgress _ hprogress =>
    simp [resharingEntered, ResharingContractState.prospectiveEpochId,
      hprogress.epochId] at hentered
  | resharedKey _ _ _ _ _ hvote =>
    have hepoch := (KeyEvent.voteSuccess_eq_ok hvote).1.epochId
    simp [resharingEntered, ResharingContractState.prospectiveEpochId, hepoch] at hentered
  | votedCancelResharing | votedReproposal =>
    simp [resharingEntered, ResharingContractState.prospectiveEpochId] at hentered
  | _ => cases hentered

/-- A call of `vote_new_parameters` that moves a reachable state to a new resharing completes the
votes for its proposal. Every proposed participant has voted for it in this round, each vote was
admitted when it was cast, and `threshold` of the voters are current participants under the same
id. -/
theorem resharing_needs_full_consent (hdeployed : Deployed contract) (calls : List Call)
    {call : Call} {epochId : EpochId} {proposal : ThresholdParameters}
    (hmethod : call.method = .voteNewParameters epochId proposal)
    (hentered : (resharingEntered (run apply contract calls).protocolState
      (run apply contract (calls ++ [call])).protocolState).isSome = true) :
    (run apply contract (calls ++ [call])).protocolState.prospectiveParameters = some proposal ∧
      (∀ entry ∈ proposal.participants.participants,
        (run apply contract calls).Casts call entry.1 proposal ∨
          contract.VoteStands calls entry.1 proposal) ∧
      ∃ current, (run apply contract calls).protocolState.thresholdParameters = some current ∧
        current.threshold ≤ (proposal.participants.participants.filter fun entry ↦
          decide (entry ∈ current.participants.participants)).length := by
  have hlast : run apply contract (calls ++ [call]) = (run apply contract calls).apply call := by
    rw [run_append, run_cons, run_nil]
  rw [hlast] at hentered ⊢
  obtain ⟨hprospective, hround, running, voted, hstate, hcurrent, hvote⟩ :=
    accepted_of_resharingEntered ((run apply contract calls).stateChange_apply call) hmethod
      hentered
  have hstanding : ∀ account,
      running.parametersVotes.proposalByAccount[account]? = some proposal →
        contract.VoteStands calls account proposal := by
    intro account hvoted
    refine voteStands_of_standingVote hdeployed calls ?_
    rw [standingVote, hstate]
    exact hvoted
  have hproposed : ∀ account,
      running.parametersVotes.proposalByAccount[account]? = some proposal →
        proposal.participants.isParticipantGivenAccountId account = true := by
    intro account hvoted
    obtain ⟨_, _, _, -, hcasts, -⟩ := hstanding account hvoted
    obtain ⟨_, -, hmember, -⟩ := hcasts.admitted
    exact hmember
  refine ⟨hprospective, fun entry hentry ↦ ?_, running.parameters, hcurrent, ?_⟩
  · rcases all_voted_of_accepted hvote hproposed hentry with hself | hvoted
    · have hadmits := admits_of_vote hstate hcurrent hvote
      rw [← hself] at hadmits
      exact .inl ⟨hself.symm, ⟨epochId, hmethod, hround⟩, hadmits⟩
    · exact .inr (hstanding entry.1 hvoted)
  · have hvalid := (processNewParametersProposal_cases hvote).1
    exact ThresholdParameters.threshold_le_kept_of_validateIncomingProposal hvalid

namespace TwoNodes

/-- Carol joins alice and bob. -/
def withCarol : ThresholdParameters where
  participants :=
    { nextId := 3
      participants := parameters.participants.participants ++
        [("carol", 2, { url := "c", signPk := "carol" })] }
  threshold := 2

end TwoNodes

open TwoNodes in
/-- Alice and bob admit carol, and the vote of carol moves the network to the resharing. -/
theorem resharing_needs_full_consent_withCarol :
    (resharingEntered
        (run apply network (both (.voteNewParameters 1 withCarol))).protocolState
        (run apply network (both (.voteNewParameters 1 withCarol) ++
          [signedBy "carol" (.voteNewParameters 1 withCarol)])).protocolState).isSome = true ∧
      network.VoteStands (both (.voteNewParameters 1 withCarol)) "alice" withCarol := by
  have hentered : (resharingEntered
      (run apply network (both (.voteNewParameters 1 withCarol))).protocolState
      (run apply network (both (.voteNewParameters 1 withCarol) ++
        [signedBy "carol" (.voteNewParameters 1 withCarol)])).protocolState).isSome = true := by
    decide +kernel
  refine ⟨hentered, ?_⟩
  have hconsent := (resharing_needs_full_consent network_deployed _ rfl hentered).2.1
    ("alice", 0, { url := "a", signPk := "alice" }) List.mem_cons_self
  rcases hconsent with hcasts | hstands
  · exact absurd hcasts.signer (by decide)
  · exact hstands

end MpcContract

end NearMpc.Contract
