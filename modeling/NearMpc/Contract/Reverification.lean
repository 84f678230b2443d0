import NearMpc.Contract.ParameterValidity

/-!
# Reverification of the participants

`verify_tee` looks which participants still have a valid attestation. Some of its steps `expect`
that the parameters of those that remain pass the validation. They do in every reachable state: the
threshold is the old one, so fewer participants need no fewer, and all of them keep their entries.
-/

set_option autoImplicit false

namespace NearMpc.Contract

open Library Library.Outcome
open Std (TreeMap)

theorem Participants.Valid.validate_sublist {members remaining : Participants}
    (hvalid : members.Valid) (hnextId : remaining.nextId = members.nextId)
    (hsublist : remaining.participants.Sublist members.participants) :
    remaining.validate = .ok () := by
  have hbelow : ∀ entry ∈ remaining.participants, entry.2.1 < remaining.nextId := by
    intro entry hentry
    rw [hnextId]
    exact hvalid.below entry (hsublist.subset hentry)
  have hids := List.toFinset_card_of_nodup (hvalid.ids.sublist (hsublist.map _))
  have haccounts := List.toFinset_card_of_nodup (hvalid.accounts.sublist (hsublist.map _))
  rw [List.length_map] at hids haccounts
  exact bind_eq_ok.mpr ⟨(), require_eq_ok.mpr hbelow, bind_eq_ok.mpr
    ⟨(), require_eq_ok.mpr hids, require_eq_ok.mpr haccounts⟩⟩

namespace ThresholdParameters

variable {current : ThresholdParameters}

/-- The scan of participants that all stay counts them. -/
theorem scanProposed_of_kept (oldById : TreeMap ParticipantId AccountId) {oldByAcc}
    (scan : ProposalScan) {entries} (hkept : ∀ entry ∈ entries, oldByAcc[entry.1]? = some entry.2) :
    scanProposed oldById oldByAcc scan entries =
      .ok { scan with nOld := scan.nOld + entries.length } := by
  induction entries generalizing scan with
  | nil => rfl
  | cons _ _ ih =>
    obtain ⟨hentry, hrest⟩ := List.forall_mem_cons.mp hkept
    rw [scanProposed, hentry]
    simp only [require, if_true, ok_bind]
    rw [ih _ hrest, List.length_cons, Nat.add_assoc, Nat.add_comm 1]

theorem getElem?_byAccount (hvalid : current.participants.Valid) {entry}
    (hentry : entry ∈ current.participants.participants) :
    (byAccount current.participants)[entry.1]? = some entry.2 := by
  cases hfound : (byAccount current.participants)[entry.1]? with
  | none => exact absurd rfl ((getElem?_insertAll_eq_none hfound).1 entry hentry)
  | some found =>
    have hmem : (entry.1, found) ∈ current.participants.participants := mem_of_byAccount hfound
    rw [← List.inj_on_of_nodup_map hvalid.accounts hmem hentry rfl]

/-- Valid parameters admit the participants that remain, as long as they reach the threshold. -/
theorem Valid.validateIncomingProposal_remaining (hvalid : current.Valid) {tee : TeeView}
    {remaining : Participants}
    (hremaining : tee.reverifyAndCleanupParticipants current.participants = .partially remaining)
    (hthreshold : current.threshold ≤ remaining.len) :
    current.validateIncomingProposal
      { participants := remaining, threshold := current.threshold } = .ok () := by
  obtain ⟨hnextId, hsublist⟩ := TeeView.sublist_of_reverifyAndCleanupParticipants hremaining
  obtain ⟨_, hchecked, -⟩ := bind_eq_ok.mp (hvalid.new_remaining_eq_ok hremaining hthreshold)
  refine bind_eq_ok.mpr ⟨(), bind_eq_ok.mpr
    ⟨_, hchecked, hvalid.participants.validate_sublist hnextId hsublist⟩, ?_⟩
  refine bind_eq_ok.mpr ⟨_, scanProposed_of_kept _ _ fun entry hentry ↦
    getElem?_byAccount hvalid.participants (hsublist.subset hentry), ?_⟩
  refine bind_eq_ok.mpr ⟨(), require_eq_ok.mpr ?_, ?_⟩
  · simpa [Participants.len] using hthreshold
  · simp [Participants.len, pure_eq]

end ThresholdParameters

/-- The participants whose attestations are still valid. -/
def TeeView.attested (self : TeeView) (participants : Participants) : Participants where
  nextId := participants.nextId
  participants := participants.participants.filter fun entry ↦ self.reverifyParticipant
    { accountId := entry.1
      tlsPublicKey := entry.2.2.signPk
      accountPublicKey :=
        (self.storedNodeId entry.2.2.signPk).bind fun nodeId ↦ nodeId.accountPublicKey }

namespace MpcContract

/-- What `verify_tee` makes of a running state, if these parameters remain. -/
structure Reverified (before after : MpcContract) (running : RunningContractState)
    (remaining : ThresholdParameters) : Prop where
  acceptRequests : after.acceptRequests = false ↔ remaining.participants.len < remaining.threshold
  kept : remaining = running.parameters ∨ remaining.participants.len < remaining.threshold →
    after.protocolState = before.protocolState
  moved : remaining ≠ running.parameters → remaining.threshold ≤ remaining.participants.len →
    remaining.Valid ∧
      ((∃ state, after.protocolState = .resharing state ∧
          state.resharingKey.parameters = remaining ∧
          state.previousRunningState.parameters = running.parameters ∧
          state.previousRunningState.keyset = running.keyset) ∨
        running.domains.domains = [] ∧
          ∃ state, after.protocolState = .running state ∧ state.parameters = remaining)

variable {contract : MpcContract}

theorem voterOrPanic_eq_ok {running env} (hrunning : contract.protocolState = .running running)
    (hsigner : env.signerAccountId = env.predecessorAccountId)
    (hparticipant :
      running.parameters.participants.isParticipantGivenAccountId env.signerAccountId = true) :
    contract.voterOrPanic env = .ok env.signerAccountId := by
  obtain ⟨_, hentry⟩ := Option.isSome_iff_exists.mp
    (List.find?_isSome.mpr (List.any_eq_true.mp hparticipant))
  have hcaller : assertCallerIsSigner env = .ok env.signerAccountId :=
    bind_eq_ok.mpr ⟨(), guardPanic_eq_ok.mpr hsigner, rfl⟩
  simp [voterOrPanic, hcaller, hrunning, ProtocolContractState.authenticateUpdateVote,
    authenticatedParticipantId, hentry, okOr, pure_eq]

/-- `verify_tee` neither fails nor panics in a reachable running state. -/
theorem verifyTee_never_fails (hdeployed : Deployed contract) (calls : List Call)
    {running : RunningContractState} {env : Env}
    (hrunning : (run apply contract calls).protocolState = .running running)
    (hsigner : env.signerAccountId = env.predecessorAccountId)
    (hparticipant :
      running.parameters.participants.isParticipantGivenAccountId env.signerAccountId = true)
    (tee : TeeView) :
    ∃ after accepted, (run apply contract calls).verifyTee env tee = .ok (after, accepted) ∧
      Reverified (run apply contract calls) after running
        { running.parameters with
          participants := tee.attested running.parameters.participants } := by
  have hvalid : running.parameters.Valid :=
    (parametersValid_run hdeployed calls).current _ (by rw [hrunning]; rfl)
  generalize run apply contract calls = contract at hrunning ⊢
  have hvoter := voterOrPanic_eq_ok hrunning hsigner hparticipant
  simp only [verifyTee, hvoter, ok_bind, hrunning]
  by_cases hall : (tee.attested running.parameters.participants).len =
      running.parameters.participants.len
  · have hsame : tee.attested running.parameters.participants =
        running.parameters.participants := by
      have hkept := List.filter_eq_self.mpr (List.length_filter_eq_length_iff.mp hall)
      rw [TeeView.attested, hkept]
    have hfull : tee.reverifyAndCleanupParticipants running.parameters.participants = .full :=
      if_neg (not_not.mpr hall)
    rw [hfull, hsame]
    exact ⟨_, _, rfl, by simp [hvalid.maximum], fun _ ↦ hrunning.symm, fun hne ↦ absurd rfl hne⟩
  · have hpart : tee.reverifyAndCleanupParticipants running.parameters.participants =
        .partially (tee.attested running.parameters.participants) := if_pos hall
    rw [hpart]
    by_cases hfew : (tee.attested running.parameters.participants).len <
        running.parameters.threshold
    · simp only [if_pos hfew]
      exact ⟨_, _, rfl, by simp [hfew], fun _ ↦ hrunning.symm,
        fun _ henough ↦ absurd hfew henough.not_gt⟩
    · have hadmitted := hvalid.validateIncomingProposal_remaining hpart (not_lt.mp hfew)
      simp only [if_neg hfew, hvalid.new_remaining_eq_ok hpart (not_lt.mp hfew), hadmitted, ok_bind]
      refine ⟨_, _, rfl, by simp [not_lt.mp hfew], ?_, fun _ _ ↦
        ⟨ThresholdParameters.valid_of_validateIncomingProposal hadmitted, ?_⟩⟩
      · rintro (hsame | habsurd)
        · exact absurd (congrArg (fun parameters ↦ parameters.participants.len) hsame) hall
        · exact absurd habsurd hfew
      · unfold RunningContractState.transitionToResharingNoChecks
        cases hfirst : running.domains.getDomainByIndex 0 with
        | some => exact Or.inl ⟨_, rfl, rfl, rfl, rfl⟩
        | none =>
          exact Or.inr ⟨by simpa [DomainRegistry.getDomainByIndex] using hfirst, _, rfl, rfl⟩

open ThreeAccounts in
/-- Carol's attestation has lapsed. -/
theorem verifyTee_never_fails_without_carol :
    ∃ running after accepted, network.protocolState = .running running ∧
      network.verifyTee verifyWithoutCarol.env verifyWithoutCarol.tee = .ok (after, accepted) ∧
      Reverified network after running
        { running.parameters with
          participants := verifyWithoutCarol.tee.attested running.parameters.participants } := by
  obtain ⟨after, accepted, hverify, hreverified⟩ := @verifyTee_never_fails _ network_deployed [] _
    verifyWithoutCarol.env rfl rfl (by decide) verifyWithoutCarol.tee
  exact ⟨_, after, accepted, rfl, hverify, hreverified⟩

end MpcContract

end NearMpc.Contract
