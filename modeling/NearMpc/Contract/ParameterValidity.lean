import NearMpc.Contract.ParticipantIds

/-!
# Validity of the threshold parameters

Parameters enter the contract through its initializers, through votes, through `verify_tee`, which
drops the participants whose attestation has lapsed, and through migrations, which replace the info
of one participant. `ThresholdParameters.Valid` is what every parameter set satisfies that is in
force or being reshared to: accounts and ids are distinct, `next_id` is above every id, and the
threshold is at least two, at most the number of participants and at least 60 percent of it.

The initializers validate their argument, and a proposal is validated wherever it comes from, by
`validate_incoming_proposal`. `verify_tee` builds its proposal with an `expect` on the threshold
before that check; `new_remaining_eq_ok` shows that it cannot fail on valid parameters, since the
number of participants only falls.
-/

set_option autoImplicit false

namespace NearMpc.Contract

open Library Library.Outcome ThresholdParameters

/-! ### Valid parameters -/

namespace ThresholdParameters

/-- What `validate` checks. -/
structure Valid (parameters : ThresholdParameters) : Prop where
  participants : parameters.participants.Valid
  minimum : 2 ≤ parameters.threshold
  maximum : parameters.threshold ≤ parameters.participants.len
  relative : 3 * parameters.participants.len ≤ 5 * parameters.threshold

/-- The threshold check accepts exactly the thresholds between 60 percent, rounded up, or two, and
the number of shares. -/
theorem validateThreshold_eq_ok_iff {nShares threshold} :
    validateThreshold nShares threshold = .ok () ↔
      2 ≤ threshold ∧ threshold ≤ nShares ∧ 3 * nShares ≤ 5 * threshold := by
  simp only [validateThreshold, bind_eq_ok, require_eq_ok, exists_const]
  unfold minThresholdAbsolute
  constructor
  · intro _
    omega
  · intro _
    omega

theorem valid_of_validate {parameters : ThresholdParameters}
    (hok : parameters.validate = .ok ()) : parameters.Valid := by
  simp only [validate, bind_eq_ok] at hok
  obtain ⟨⟨⟩, hthreshold, hmembers⟩ := hok
  obtain ⟨hminimum, hmaximum, hrelative⟩ := validateThreshold_eq_ok_iff.mp hthreshold
  exact ⟨Participants.valid_of_validate hmembers, hminimum, hmaximum, hrelative⟩

theorem valid_of_validateIncomingProposal {current proposal : ThresholdParameters}
    (hok : current.validateIncomingProposal proposal = .ok ()) : proposal.Valid := by
  simp only [validateIncomingProposal, bind_eq_ok] at hok
  obtain ⟨⟨⟩, hvalid, -⟩ := hok
  exact valid_of_validate hvalid

theorem Valid.updateInfo {current updated : ThresholdParameters} {account : AccountId}
    {info : ParticipantInfo} (hvalid : current.Valid)
    (hok : current.updateInfo account info = .ok updated) : updated.Valid := by
  obtain ⟨hthreshold, hsame⟩ := updateInfo_eq_ok hok
  have hlen : updated.participants.len = current.participants.len := by
    simpa [Participants.len] using congrArg List.length hsame.accounts
  refine ⟨hsame.valid hvalid.participants, ?_, ?_, ?_⟩
  · rw [hthreshold]
    exact hvalid.minimum
  · rw [hthreshold, hlen]
    exact hvalid.maximum
  · rw [hthreshold, hlen]
    exact hvalid.relative

/-- The `expect` of `verify_tee`: the threshold in force suits the participants that remain, as
long as they reach it. -/
theorem Valid.new_remaining_eq_ok {current : ThresholdParameters} (hvalid : current.Valid)
    {tee : TeeView} {remaining : Participants}
    (hremaining : tee.reverifyAndCleanupParticipants current.participants = .partially remaining)
    (hthreshold : current.threshold ≤ remaining.len) :
    new remaining current.threshold =
      .ok { participants := remaining, threshold := current.threshold } := by
  have hfewer : remaining.len ≤ current.participants.len :=
    (TeeView.sublist_of_reverifyAndCleanupParticipants hremaining).2.length_le
  have hrelative := hvalid.relative
  have hchecked : validateThreshold remaining.len current.threshold = .ok () :=
    validateThreshold_eq_ok_iff.mpr ⟨hvalid.minimum, hthreshold, by omega⟩
  simp only [new, hchecked]
  rfl

end ThresholdParameters

/-! ### Steps -/

namespace ProtocolContractState

/-- The parameters in force and those being reshared to are valid. -/
structure ParametersValid (state : ProtocolContractState) : Prop where
  current : ∀ parameters, state.thresholdParameters = some parameters → parameters.Valid
  prospective : ∀ parameters, state.prospectiveParameters = some parameters → parameters.Valid

theorem ParametersValid.settled {state : ProtocolContractState} {parameters : ThresholdParameters}
    (hcurrent : state.thresholdParameters = some parameters)
    (hprospective : state.prospectiveParameters = none) (hvalid : parameters.Valid) :
    state.ParametersValid where
  current := fun _ hfound ↦ Option.some_inj.mp (hcurrent.symm.trans hfound) ▸ hvalid
  prospective := fun _ hfound ↦ by cases hprospective.symm.trans hfound

theorem parametersValid_of_change {method before after}
    (hchange : ParametersChange method before after) (hvalid : before.ParametersValid) :
    after.ParametersValid := by
  cases hchange with
  | kept hcurrent hprospective =>
    constructor
    · intro parameters hafter
      exact hvalid.current parameters (hcurrent ▸ hafter)
    · intro parameters hafter
      rcases hprospective with hsame | ⟨hnone, -⟩
      · exact hvalid.prospective parameters (hsame ▸ hafter)
      · rw [hnone] at hafter
        cases hafter
  | proposed _ proposal _ hadmissible hbefore hafter hprospective =>
    constructor
    · intro parameters hparams
      rw [hafter] at hparams
      exact hvalid.current parameters (hbefore.trans hparams)
    · intro parameters hparams
      obtain rfl : proposal = parameters := Option.some_inj.mp (hprospective.symm.trans hparams)
      exact valid_of_validateIncomingProposal hadmissible
  | adopted _ _ _ hadmissible _ hafter hprospective =>
    exact .settled hafter hprospective
      (valid_of_validateIncomingProposal hadmissible)
  | completed _ proposal _ hresharing hafter hprospective =>
    exact .settled hafter hprospective (hvalid.prospective proposal hresharing)
  | migrated current _ _ _ hupdated hbefore hafter hprospective =>
    exact .settled hafter hprospective ((hvalid.current current hbefore).updateInfo hupdated)

end ProtocolContractState

/-! ### Runs -/

namespace MpcContract

open ProtocolContractState

variable {contract : MpcContract}

theorem deployed_parametersValid (hdeployed : Deployed contract) :
    contract.protocolState.ParametersValid := by
  obtain ⟨_, _, initial, hstate, hvalid, -⟩ := deployed_cases hdeployed
  rw [hstate]
  constructor
  · intro parameters hparams
    obtain rfl : initial = parameters := Option.some_inj.mp hparams
    exact valid_of_validate hvalid
  · intro _ hnone
    cases hnone

theorem parametersValid_run (hdeployed : Deployed contract) (calls : List Call) :
    (run apply contract calls).protocolState.ParametersValid := by
  have hstep : ∀ (state : MpcContract) (call : Call), state.protocolState.ParametersValid →
      (state.apply call).protocolState.ParametersValid := fun state call hvalid ↦
    parametersValid_of_change (state.stateChange_apply call).parametersChange hvalid
  exact @run_invariant _ _ apply contract (fun state ↦ state.protocolState.ParametersValid)
    (deployed_parametersValid hdeployed) hstep calls

/-- In every reachable state the parameters in force and those being reshared to are valid. -/
theorem acceptedParameters_valid (hdeployed : Deployed contract) (calls : List Call)
    {parameters : ThresholdParameters}
    (haccepted : (run apply contract calls).Accepted parameters) : parameters.Valid := by
  have hvalid := parametersValid_run hdeployed calls
  rcases haccepted with hcurrent | hprospective
  · exact hvalid.current parameters hcurrent
  · exact hvalid.prospective parameters hprospective

namespace ThreeAccounts

/-- A call of `verify_tee` by alice after the attestation of carol has lapsed. -/
def verifyWithoutCarol : Call where
  env := TwoNodes.envOf "alice"
  tee := { TwoNodes.attested with reverifyParticipant := fun nodeId ↦ nodeId.accountId != "carol" }
  method := .verifyTee

end ThreeAccounts

open ThreeAccounts

/-- `verify_tee` drops carol from a network of three with threshold two, and what is left is
valid. -/
theorem acceptedParameters_valid_without_carol :
    (run apply network [verifyWithoutCarol]).Accepted
        (parametersOf 3 [entry "alice" 0, entry "bob" 1]) ∧
      (parametersOf 3 [entry "alice" 0, entry "bob" 1]).Valid := by
  have haccepted : (run apply network [verifyWithoutCarol]).Accepted
      (parametersOf 3 [entry "alice" 0, entry "bob" 1]) := Or.inl (by decide +kernel)
  exact ⟨haccepted, acceptedParameters_valid network_deployed _ haccepted⟩

end MpcContract

end NearMpc.Contract
