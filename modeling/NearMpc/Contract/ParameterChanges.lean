import NearMpc.Contract.StateChanges

/-!
# How the threshold parameters change

The parameters in force are those of the running state, also while it generates keys or reshares
(`thresholdParameters`, as in `state.rs`); a resharing has the parameters it leads to besides
(`prospectiveParameters`). `ParametersChange` says everything a call can do to the two, and
`parametersChange_perform` that every successful call does one of these things:

- it keeps the parameters in force, and at most gives up a resharing that it is a vote to cancel;
- it accepts a proposal that has been validated against the parameters in force, and reshares to it;
- with no key to reshare, it puts such a proposal in force at once;
- it completes a resharing;
- it replaces the info of one participant by that of the node it migrates to.

What invariants of the participants over runs need to know of the calls is in these cases.
-/

set_option autoImplicit false

namespace NearMpc.Contract

open Library Library.Outcome

/-! ### The parameters of a state -/

namespace ProtocolContractState

/-- The parameters in force. -/
def thresholdParameters : ProtocolContractState → Option ThresholdParameters
  | .notInitialized => none
  | .initializing state => some state.generatingKey.parameters
  | .running state => some state.parameters
  | .resharing state => some state.previousRunningState.parameters

/-- The parameters that the keys are being reshared to. -/
def prospectiveParameters : ProtocolContractState → Option ThresholdParameters
  | .resharing state => some state.resharingKey.parameters
  | _ => none

end ProtocolContractState

/-- What a call of the method can do to the parameters. -/
inductive ParametersChange (method : Method) (before after : ProtocolContractState) : Prop where
  | kept (hcurrent : after.thresholdParameters = before.thresholdParameters)
      (hprospective : after.prospectiveParameters = before.prospectiveParameters ∨
        after.prospectiveParameters = none ∧ method = .voteCancelResharing)
  | proposed (current proposal : ThresholdParameters)
      (hproposes : method.Proposes current proposal)
      (hvalid : current.validateIncomingProposal proposal = .ok ())
      (hbefore : before.thresholdParameters = some current)
      (hafter : after.thresholdParameters = some current)
      (hprospective : after.prospectiveParameters = some proposal)
      (hvoted : before.prospectiveParameters = none ∨
        ∃ epochId, method = .voteNewParameters epochId proposal)
  | adopted (current proposal : ThresholdParameters)
      (hproposes : method.Proposes current proposal)
      (hvalid : current.validateIncomingProposal proposal = .ok ())
      (hbefore : before.thresholdParameters = some current)
      (hafter : after.thresholdParameters = some proposal)
      (hprospective : after.prospectiveParameters = none)
      (hrunning : before.prospectiveParameters = none)
  | completed (current proposal : ThresholdParameters)
      (hbefore : before.thresholdParameters = some current)
      (hresharing : before.prospectiveParameters = some proposal)
      (hafter : after.thresholdParameters = some proposal)
      (hprospective : after.prospectiveParameters = none)
  | migrated (current updated : ThresholdParameters) (accountId : AccountId)
      (info : ParticipantInfo) (hupdated : current.updateInfo accountId info = .ok updated)
      (hbefore : before.thresholdParameters = some current)
      (hafter : after.thresholdParameters = some updated)
      (hprospective : after.prospectiveParameters = none)
      (hrunning : before.prospectiveParameters = none)

theorem ParametersChange.refl (method : Method) (state : ProtocolContractState) :
    ParametersChange method state state := .kept rfl (.inl rfl)

/-- What each change of the protocol state does to the parameters. -/
theorem StateChange.parametersChange {call timeoutBlocks before after}
    (hchange : StateChange call timeoutBlocks before after) :
    ParametersChange call.method before after := by
  cases hchange with
  | unchanged => exact .refl _ _
  | migrated parameters accountId info hupdated =>
    exact .migrated _ parameters accountId info hupdated rfl rfl rfl rfl
  | votedParameters _ _ _ _ hvote =>
    obtain ⟨-, -, -, rfl, -⟩ := RunningContractState.processNewParametersProposal_cases hvote
    exact .kept rfl (.inl rfl)
  | reshare proposal _ hagreed =>
    obtain ⟨hproposes, hvalid, _, rfl⟩ := hagreed.validated
    exact .proposed _ proposal hproposes hvalid rfl rfl rfl (.inl rfl)
  | adopt proposal hagreed =>
    obtain ⟨hproposes, hvalid, -⟩ := hagreed.validated
    exact .adopted _ proposal hproposes hvalid rfl rfl rfl rfl
  | votedDomains | addDomains | votedCancelKeygen | cancelKeygen | votedCancelResharing =>
    exact .kept rfl (.inl rfl)
  | keygenProgress _ hprogress =>
    exact .kept (congrArg some hprogress.parameters) (.inl rfl)
  | generatedKey _ _ _ _ hvote =>
    have hsame := congrArg some (KeyEvent.parameters_of_voteSuccess hvote)
    exact .kept hsame (.inl rfl)
  | generatedAllKeys _ _ _ hvote =>
    have hsame := congrArg some (KeyEvent.parameters_of_voteSuccess hvote)
    exact .kept hsame (.inl rfl)
  | reshareProgress _ hprogress =>
    exact .kept rfl (.inl (congrArg some hprogress.parameters))
  | resharedKey _ _ _ _ _ hvote =>
    have hsame := congrArg some (KeyEvent.parameters_of_voteSuccess hvote)
    exact .kept rfl (.inl hsame)
  | resharedAllKeys _ _ _ _ hvote =>
    have hsame := congrArg some (KeyEvent.parameters_of_voteSuccess hvote)
    exact .completed _ _ rfl hsame.symm rfl rfl
  | cancelResharing hmethod => exact .kept rfl (.inr ⟨rfl, hmethod⟩)
  | votedReproposal _ _ _ _ _ hvote =>
    obtain ⟨-, -, -, rfl, -⟩ := RunningContractState.processNewParametersProposal_cases hvote
    exact .kept rfl (.inl rfl)
  | supersede _ _ proposal _ hmethod _ hvote =>
    obtain ⟨hvalid, -, -, rfl, -⟩ := RunningContractState.processNewParametersProposal_cases hvote
    refine .proposed _ proposal ?_ hvalid rfl rfl rfl (.inr ⟨_, hmethod⟩)
    rw [hmethod]
    rfl

/-- Every successful call changes the parameters in one of these ways. -/
theorem MpcContract.parametersChange_perform {contract next : MpcContract} {call : Call}
    (hok : contract.perform call = .ok next) :
    ParametersChange call.method contract.protocolState next.protocolState :=
  (stateChange_perform hok).parametersChange

end NearMpc.Contract
