import NearMpc.Contract.AttestationOwnership
import NearMpc.Contract.ParticipantIds

/-!
# Votes for docker images along a run

`vote_code_hash` stores the vote of a participant under its id, and allows the image once as many
votes for it are stored as the threshold in force. All stored votes are counted. They outlive a
change of the participants: nothing removes the vote of an account that leaves, `clean_tee_status`
forgets attestations only. So an account that has left still counts, while the votes on parameters,
domains and contract updates are filtered by the participants when they are counted.

A run is observed together with the standing vote of each account, the hash it has last voted for
since votes were cleared (`VotingHistory`). `StandingVotes` ties what is stored to what stands: an
id in use holds the standing vote of its account. It survives every call as long as ids are not
handed out twice. When all stored votes for the image are under ids of participants in force, the
count is then a count of standing votes of participants.
-/

set_option autoImplicit false

namespace NearMpc.Contract

open Library Library.Outcome TeeContract
open Std (TreeMap)

/-! ### Stored and standing votes -/

/-- What is stored under an id in use is the standing vote of its account. -/
def StandingVotes (members : Participants) (votes : TreeMap ParticipantId MpcDockerImageHash)
    (standing : AccountId → Option MpcDockerImageHash) : Prop :=
  ∀ id codeHash, votes[id]? = some codeHash → id < members.nextId ∧
    ∀ account, members.Maps id account → standing account = some codeHash

namespace StandingVotes

variable {members : Participants} {votes : TreeMap ParticipantId MpcDockerImageHash}
  {standing : AccountId → Option MpcDockerImageHash}

theorem empty (members : Participants) (standing : AccountId → Option MpcDockerImageHash) :
    StandingVotes members ∅ standing := by
  intro _ _ hvote
  simp at hvote

section

variable (hstanding : StandingVotes members votes standing)
include hstanding

/-- A participant that joins has an id under which nothing is stored. -/
theorem follows {later} (hfollows : Participants.Follows members later) :
    StandingVotes later votes standing := by
  intro id codeHash hvote
  obtain ⟨hbelow, haccounts⟩ := hstanding id codeHash hvote
  refine ⟨hbelow.trans_le hfollows.nextId, fun account hmaps ↦ ?_⟩
  rcases hfollows.maps id account hmaps with hold | hnew
  · exact haccounts account hold
  · exact absurd hbelow (Nat.not_lt.mpr hnew)

/-- A participant votes. -/
theorem insert (hvalid : members.Valid) {voter signer} (hvoter : members.Maps voter signer)
    (codeHash : MpcDockerImageHash) :
    StandingVotes members (votes.insert voter codeHash)
      (Function.update standing signer (some codeHash)) := by
  intro id stored hvote
  rw [TreeMap.getElem?_insert] at hvote
  by_cases hid : compare voter id = .eq
  · obtain rfl : voter = id := Std.LawfulEqOrd.eq_of_compare hid
    rw [if_pos hid] at hvote
    refine ⟨hvalid.id_lt_nextId hvoter, fun account hmaps ↦ ?_⟩
    rw [hvalid.account_unique hmaps hvoter, Function.update_self]
    exact hvote
  · rw [if_neg hid] at hvote
    obtain ⟨hbelow, haccounts⟩ := hstanding id stored hvote
    refine ⟨hbelow, fun account hmaps ↦ ?_⟩
    have hother : account ≠ signer := by
      rintro rfl
      rw [hvalid.id_unique hvoter hmaps] at hid
      exact hid Std.ReflCmp.compare_self
    rw [Function.update_of_ne hother]
    exact haccounts account hmaps

/-- If only participants have votes for the image stored, as many of them have it as their standing
vote. -/
theorem exists_voters (hvalid : members.Valid) {codeHash}
    (hmembers : ∀ id, votes[id]? = some codeHash → ∃ account, members.Maps id account) :
    ∃ voters : Finset AccountId,
      voters.card = votes.toList.countP (fun vote ↦ vote.2 == codeHash) ∧
        ∀ account ∈ voters, members.isParticipantGivenAccountId account = true ∧
          standing account = some codeHash := by
  obtain ⟨ids, hcard, hids⟩ := exists_keys_of_countP_eq votes codeHash
  have haccount : ∀ id : ids, ∃ account, members.Maps id account :=
    fun id ↦ hmembers id (hids id id.2)
  choose accountOf haccountOf using haccount
  have hinjective : Function.Injective accountOf := by
    intro first second heq
    have hsecond := haccountOf second
    rw [← heq] at hsecond
    exact Subtype.ext (hvalid.id_unique (haccountOf first) hsecond)
  refine ⟨Finset.univ.image accountOf, ?_, ?_⟩
  · rw [Finset.card_image_of_injective _ hinjective, Finset.card_univ, Fintype.card_coe, hcard]
  · intro _ hvoter
    obtain ⟨id, -, rfl⟩ := Finset.mem_image.mp hvoter
    obtain ⟨_, hentry, -, hname⟩ := haccountOf id
    refine ⟨hname ▸ ThresholdParameters.isParticipant_of_mem hentry, ?_⟩
    exact (hstanding id codeHash (hids id id.2)).2 _ (haccountOf id)

end

end StandingVotes

/-! ### What a call does to the votes -/

namespace TeeContract

variable {host : AttestationHost} {self next : TeeContract} {context : Context}

/-- A vote is stored under the id of its signer. Either the threshold is reached and all votes are
cleared, or the images stay as they are. -/
theorem voteCodeHash_eq_ok {codeHash} (hok : self.voteCodeHash host context codeHash = .ok next) :
    next.contract = self.contract ∧ ∃ parameters voter,
      self.contract.protocolState.thresholdParameters = some parameters ∧
      parameters.participants.Maps voter context.signerAccountId ∧
      (next.teeState.votes = ∅ ∧ parameters.threshold ≤
          (self.teeState.votes.insert voter codeHash).toList.countP
            (fun vote ↦ vote.2 == codeHash) ∨
        next.teeState =
          { self.teeState with votes := self.teeState.votes.insert voter codeHash }) := by
  simp only [voteCodeHash, bind_eq_ok, unwrap_eq_ok] at hok
  obtain ⟨_, -, parameters, hparams, voter, hvoter, threshold, hthreshold, hok⟩ := hok
  have hmaps : parameters.participants.Maps voter context.signerAccountId :=
    Participants.maps_of_authenticated hvoter
  have hinForce : threshold = parameters.threshold := by
    unfold ProtocolContractState.threshold at hthreshold
    unfold ProtocolContractState.thresholdParameters at hparams
    split at hthreshold <;>
      simp_all only [Option.some.injEq, ok.injEq, reduceCtorEq]
  split_ifs at hok with hreached
  · cases hok
    exact ⟨rfl, parameters, voter, hparams, hmaps, Or.inl ⟨rfl, hinForce ▸ hreached⟩⟩
  · cases hok
    exact ⟨rfl, parameters, voter, hparams, hmaps, Or.inr rfl⟩

theorem onProtocol_eq_ok {method} (hok : self.onProtocol context method = .ok next) :
    next.teeState.votes = self.teeState.votes ∧
      ParametersChange method self.contract.protocolState next.contract.protocolState := by
  simp only [onProtocol, bind_eq_ok, pure_eq, ok.injEq] at hok
  obtain ⟨_, hperform, rfl⟩ := hok
  refine ⟨?_, MpcContract.parametersChange_perform hperform⟩
  cases method <;> rfl

theorem cleanTeeStatus_votes (hok : self.cleanTeeStatus = .ok next) :
    next.teeState.votes = self.teeState.votes ∧ next.contract = self.contract := by
  unfold cleanTeeStatus at hok
  split at hok
  · cases hok
    exact ⟨rfl, rfl⟩
  · cases hok

/-- The call votes for the image and changes the allowed images. -/
def Whitelists (host : AttestationHost) (self : TeeContract) (call : TeeCall)
    (codeHash : MpcDockerImageHash) : Prop :=
  call.method = .voteCodeHash codeHash ∧
    (self.apply host call).teeState.allowedDockerImageHashes ≠
      self.teeState.allowedDockerImageHashes

/-- The condition on a step. A proposal that adds no account does not lower `nextId`, and at a vote
for an image the stored votes for it are under ids of participants in force. -/
def OnlyParticipantsVoted (self : TeeContract) (call : TeeCall) : Prop :=
  match call.method with
  | .onProtocol method => self.contract.protocolState.KeepsNextId method
  | .voteCodeHash codeHash =>
      ∀ parameters ∈ self.contract.protocolState.thresholdParameters,
        ∀ vote ∈ self.teeState.votes.toList, vote.2 = codeHash →
          parameters.participants.isParticipantGivenParticipantId vote.1 = true
  | _ => True

instance (self : TeeContract) (call : TeeCall) : Decidable (self.OnlyParticipantsVoted call) := by
  unfold OnlyParticipantsVoted
  split <;> infer_instance

end TeeContract

/-! ### Runs -/

/-- The contract with the vote that stands for each account. -/
structure VotingHistory where
  contract : TeeContract
  standing : AccountId → Option MpcDockerImageHash

namespace VotingHistory

variable (host : AttestationHost)

/-- Nobody has voted yet. -/
def start (contract : TeeContract) : VotingHistory := ⟨contract, fun _ ↦ none⟩

variable (history : VotingHistory)

/-- The standing votes with that of the call. -/
def cast (call : TeeCall) : AccountId → Option MpcDockerImageHash :=
  match call.method with
  | .voteCodeHash codeHash =>
      Function.update history.standing call.context.signerAccountId (some codeHash)
  | _ => history.standing

/-- A call and the votes that stand after it: once the contract has cleared its votes, none does. -/
def step (call : TeeCall) : VotingHistory :=
  match history.contract.perform host call with
  | .ok next =>
      { contract := next
        standing := if next.teeState.votes.isEmpty then fun _ ↦ none else history.cast call }
  | _ => history

/-- Ids are handed out in order, and what is stored is what stands. -/
def Consistent : Prop :=
  history.contract.contract.protocolState.IdsInOrder ∧
    ∃ parameters,
      history.contract.contract.protocolState.thresholdParameters = some parameters ∧
        StandingVotes parameters.participants history.contract.teeState.votes history.standing

variable {host} {contract : TeeContract}

theorem consistent_start (hdeployed : contract.Deployed) : (start contract).Consistent := by
  obtain ⟨hcontract, parameters, hparams, hteeState⟩ := hdeployed
  refine ⟨MpcContract.deployed_idsInOrder hcontract, parameters, hparams, ?_⟩
  change StandingVotes _ contract.teeState.votes _
  rw [hteeState]
  exact StandingVotes.empty _ _

/-- A call that casts no vote leaves the votes that stand, or there are none. -/
theorem standingVotes_of_votes_eq {history : VotingHistory} {call : TeeCall}
    {next : TeeContract} {members : Participants}
    (hstanding : StandingVotes members next.teeState.votes (history.cast call)) :
    StandingVotes members next.teeState.votes
      (if next.teeState.votes.isEmpty then fun _ ↦ none else history.cast call) := by
  by_cases hempty : next.teeState.votes.isEmpty = true
  · intro _ _ hvote
    rw [TreeMap.getElem?_of_isEmpty hempty] at hvote
    cases hvote
  · rw [if_neg hempty]
    exact hstanding

theorem consistent_step {history : VotingHistory} {call : TeeCall}
    (hcond : history.contract.OnlyParticipantsVoted call)
    (hconsistent : history.Consistent) : (history.step host call).Consistent := by
  obtain ⟨horder, parameters, hparams, hstanding⟩ := hconsistent
  unfold step
  split
  next next hperform =>
    rcases call with ⟨context, method⟩
    cases method with
    | onProtocol =>
      simp only [perform, mapErr_eq_ok] at hperform
      obtain ⟨hvotes, hchange⟩ := onProtocol_eq_ok hperform
      obtain ⟨horderNext, hfollow⟩ :=
        ProtocolContractState.participantsFollow_of_change hchange horder hcond
      obtain ⟨later, hlater, hfollows⟩ := hfollow parameters hparams
      refine ⟨horderNext, later, hlater, standingVotes_of_votes_eq ?_⟩
      rw [hvotes]
      exact hstanding.follows hfollows
    | voteCodeHash codeHash =>
      simp only [perform, mapErr_eq_ok] at hperform
      obtain ⟨hcontract, inForce, _, hinForce, hvoter, hvotes⟩ :=
        voteCodeHash_eq_ok hperform
      obtain rfl : parameters = inForce := Option.some_inj.mp (hparams.symm.trans hinForce)
      refine ⟨hcontract ▸ horder, parameters, hcontract ▸ hparams, standingVotes_of_votes_eq ?_⟩
      rcases hvotes with ⟨hcleared, -⟩ | hstored
      · rw [hcleared]
        exact StandingVotes.empty _ _
      · rw [hstored]
        exact hstanding.insert (horder parameters hparams).1 hvoter codeHash
    | submitParticipantInfo =>
      simp only [perform, mapErr_eq_ok] at hperform
      obtain ⟨_, rfl⟩ := submitParticipantInfo_eq_ok hperform
      exact ⟨horder, parameters, hparams, standingVotes_of_votes_eq hstanding⟩
    | cleanTeeStatus =>
      simp only [perform, mapErr_eq_ok] at hperform
      obtain ⟨hvotes, hcontract⟩ := cleanTeeStatus_votes hperform
      refine ⟨hcontract ▸ horder, parameters, hcontract ▸ hparams, standingVotes_of_votes_eq ?_⟩
      rw [hvotes]
      exact hstanding
  next => exact ⟨horder, parameters, hparams, hstanding⟩

/-- In a run whose steps all meet the condition, a vote that changes the allowed images makes a
threshold of standing votes of participants in force. -/
theorem whitelisted_by_threshold_of_participants (hdeployed : contract.Deployed)
    {calls : List TeeCall} {call : TeeCall}
    (hmeet : StepsMeet (step host)
      (fun history call ↦ history.contract.OnlyParticipantsVoted call)
      (start contract) (calls ++ [call])) {codeHash : MpcDockerImageHash}
    (hwhitelists :
      (run (step host) (start contract) calls).contract.Whitelists host call codeHash) :
    ∃ parameters,
      (run (step host) (start contract) calls).contract.contract.protocolState.thresholdParameters =
        some parameters ∧
      ∃ voters : Finset AccountId, parameters.threshold ≤ voters.card ∧ ∀ account ∈ voters,
        parameters.participants.isParticipantGivenAccountId account = true ∧
          (run (step host) (start contract) calls).cast call account = some codeHash := by
  rw [stepsMeet_append] at hmeet
  obtain ⟨hbefore, hcond, -⟩ := hmeet
  obtain ⟨horder, parameters, hparams, hstanding⟩ :=
    hbefore.invariant (consistent_start hdeployed) fun _ _ ↦ consistent_step
  generalize run (step host) (start contract) calls = history at *
  rcases call with ⟨context, method⟩
  obtain ⟨rfl, hchanged⟩ := hwhitelists
  rcases history.contract.apply_cases host ⟨context, .voteCodeHash codeHash⟩ with hsame | hperform
  · rw [hsame] at hchanged
    exact absurd rfl hchanged
  · simp only [perform, mapErr_eq_ok] at hperform
    obtain ⟨-, inForce, voter, hinForce, hvoter, hvotes⟩ := voteCodeHash_eq_ok hperform
    obtain rfl : parameters = inForce := Option.some_inj.mp (hparams.symm.trans hinForce)
    have hvalid := (horder parameters hparams).1
    rcases hvotes with ⟨-, hreached⟩ | hstored
    · -- the stored votes, with that of the call, are all of participants
      have hmembers : ∀ id, (history.contract.teeState.votes.insert voter codeHash)[id]? =
          some codeHash → ∃ account, parameters.participants.Maps id account := by
        intro id hvote
        rw [TreeMap.getElem?_insert] at hvote
        by_cases hid : compare voter id = .eq
        · obtain rfl : voter = id := Std.LawfulEqOrd.eq_of_compare hid
          exact ⟨_, hvoter⟩
        · rw [if_neg hid] at hvote
          have hmember := hcond parameters hparams (id, codeHash)
            (TreeMap.mem_toList_iff_getElem?_eq_some.mpr hvote) rfl
          obtain ⟨entry, hentry, hentryId⟩ := List.any_eq_true.mp hmember
          exact ⟨entry.1, entry, hentry, by simpa using hentryId, rfl⟩
      obtain ⟨voters, hcard, hvoters⟩ :=
        (hstanding.insert hvalid hvoter codeHash).exists_voters hvalid hmembers
      exact ⟨parameters, hparams, voters, hcard ▸ hreached, hvoters⟩
    · rw [hstored] at hchanged
      exact absurd rfl hchanged

namespace VotesOfThreeAccounts

open MpcContract.ThreeAccounts TeeContract.SubmitterAndParticipant

def members : Participants where
  nextId := 3
  participants := [entry "alice" 0, entry "bob" 1, entry "carol" 2]

/-- Alice, bob and carol with threshold two, and no keys. -/
def deployment : TeeContract where
  contract := MpcContract.ThreeAccounts.network
  teeState := TeeState.withMockedParticipantAttestations members
  teeUpgradeDeadlineDurationSeconds := 100

theorem deployment_deployed : deployment.Deployed :=
  ⟨network_deployed, { participants := members, threshold := 2 }, rfl, rfl⟩

def voteForImage (account : AccountId) : TeeCall where
  context := contextOf account
  method := .voteCodeHash 7

def withoutAlice : ThresholdParameters := parametersOf 3 [entry "bob" 1, entry "carol" 2]

/-- Bob and carol continue without alice. -/
def removeAlice : List TeeCall :=
  ["bob", "carol"].map fun account ↦
    { context := contextOf account, method := .onProtocol (.voteNewParameters 1 withoutAlice) }

end VotesOfThreeAccounts

open VotesOfThreeAccounts TeeContract.SubmitterAndParticipant in
/-- Alice and bob vote for an image. -/
theorem whitelisted_by_alice_and_bob :
    (run (step localHost) (start deployment) [voteForImage "alice"]).contract.Whitelists localHost
        (voteForImage "bob") 7 ∧
      ∃ voters : Finset AccountId, 2 ≤ voters.card ∧ ∀ account ∈ voters,
        (run (step localHost) (start deployment) [voteForImage "alice"]).cast
          (voteForImage "bob") account = some 7 := by
  have hmeet : StepsMeet (step localHost)
      (fun history call ↦ history.contract.OnlyParticipantsVoted call)
      (start deployment) ([voteForImage "alice"] ++ [voteForImage "bob"]) := by decide +kernel
  have hwhitelists : (run (step localHost) (start deployment)
      [voteForImage "alice"]).contract.Whitelists localHost (voteForImage "bob") 7 :=
    ⟨rfl, by decide +kernel⟩
  obtain ⟨_, hparams, voters, hthreshold, hvoters⟩ :=
    whitelisted_by_threshold_of_participants deployment_deployed hmeet hwhitelists
  have hinForce : (run (step localHost) (start deployment)
      [voteForImage "alice"]).contract.contract.protocolState.thresholdParameters =
        some { participants := members, threshold := 2 } := by decide +kernel
  obtain rfl := Option.some_inj.mp (hinForce.symm.trans hparams)
  exact ⟨hwhitelists, voters, hthreshold, fun account haccount ↦ (hvoters account haccount).2⟩

open VotesOfThreeAccounts TeeContract.SubmitterAndParticipant in
/-- Alice votes for an image and leaves. The vote of bob then allows it, although the threshold is
two and carol has not voted. -/
theorem whitelisted_by_vote_of_removed_participant :
    let before := run (step localHost) (start deployment) (voteForImage "alice" :: removeAlice)
    deployment.Deployed ∧ before.contract.Whitelists localHost (voteForImage "bob") 7 ∧
      before.contract.contract.protocolState.thresholdParameters = some withoutAlice ∧
      ¬ ∃ voters : Finset AccountId, withoutAlice.threshold ≤ voters.card ∧
        ∀ account ∈ voters, withoutAlice.participants.isParticipantGivenAccountId account = true ∧
          before.cast (voteForImage "bob") account = some 7 := by
  intro before
  have hwhitelists : before.contract.Whitelists localHost (voteForImage "bob") 7 :=
    ⟨rfl, by decide +kernel⟩
  have hinForce : before.contract.contract.protocolState.thresholdParameters =
      some withoutAlice := by decide +kernel
  have hcarol : before.cast (voteForImage "bob") "carol" = none := by decide +kernel
  refine ⟨deployment_deployed, hwhitelists, hinForce, ?_⟩
  rintro ⟨voters, hthreshold, hvoters⟩
  have honlyBob : voters ⊆ {"bob"} := by
    intro account haccount
    obtain ⟨hparticipant, hvote⟩ := hvoters account haccount
    have hname : "bob" = account ∨ "carol" = account := by
      simpa [Participants.isParticipantGivenAccountId, withoutAlice,
        MpcContract.ThreeAccounts.parametersOf, MpcContract.ThreeAccounts.entry]
        using hparticipant
    rcases hname with rfl | rfl
    · exact Finset.mem_singleton_self _
    · rw [hcarol] at hvote
      cases hvote
  have hone := Finset.card_le_card honlyBob
  have htwo : 2 ≤ voters.card := hthreshold
  rw [Finset.card_singleton] at hone
  lia

end VotingHistory

end NearMpc.Contract
