import NearMpc.Contract.TeeCalls

/-!
# Who owns a stored attestation

Attestations are stored under TLS keys, and a call counts as made by an attested participant when
the attestation under the TLS key of the participant names the caller. `submit_participant_info`
writes under the submitted TLS key whatever is there. The verification of a quote compares both the
TLS key and the account key of the submitter with the report data, but a mock attestation is
compared with nothing: any account can submit one for the TLS key of another, which then is no
longer attested.

`submit_keeps_other_attestations_iff` says exactly when a submission leaves the attestations of
others alone.
-/

set_option autoImplicit false

namespace NearMpc.Contract

open Library Library.Outcome
open Std (TreeMap)

namespace TeeContract

section Submission

variable {host : AttestationHost} {self next : TeeContract} {context : Context}
  {attestation : Option Attestation} {tlsPublicKey : PublicKey}

/-- A submission whose attestation is accepted and whose storage is paid for goes through. -/
theorem submitParticipantInfo_eq_ok_of_paid {accepted teeState insertion}
    (hcaller : context.signerAccountId = context.predecessorAccountId)
    (hadded : self.teeState.addParticipant host context self.teeUpgradeDeadlineDurationSeconds
      { accountId := context.signerAccountId
        tlsPublicKey
        accountPublicKey := some context.signerAccountPk } accepted = .ok (teeState, insertion))
    (hpaid : payForStorage host context self.teeState teeState = .ok ()) :
    self.submitParticipantInfo host context (some accepted) tlsPublicKey =
      .ok { self with teeState } := by
  simp only [submitParticipantInfo, okOr, ok_bind, guardPanic, if_pos hcaller, hadded, hpaid]
  split_ifs <;> rfl

variable (submitter : AccountId)

/-- The attestations of other accounts are still there, unchanged. -/
def KeepsAttestationsOfOthers (before after : TeeState) : Prop :=
  ∀ (key : PublicKey) (stored : NodeAttestation), before.storedAttestations[key]? = some stored →
    stored.nodeId.accountId ≠ submitter → after.storedAttestations[key]? = some stored

/-- Other accounts that were attested participants still are. -/
def KeepsOthersAttested (before after : TeeView) : Prop :=
  ∀ participants (env : Env), env.signerAccountId ≠ submitter →
    before.isCallerAnAttestedParticipant env participants = true →
      after.isCallerAnAttestedParticipant env participants = true

/-- An attested participant is attested by an entry that names it. -/
theorem keepsOthersAttested_of_keepsAttestations {submitter before after}
    (hkeeps : KeepsAttestationsOfOthers submitter before after) (deadlineDuration : ℕ) :
    KeepsOthersAttested submitter (before.view context deadlineDuration)
      (after.view context deadlineDuration) := by
  intro _ _ hother hattested
  unfold TeeView.isCallerAnAttestedParticipant at hattested ⊢
  split at hattested
  next => cases hattested
  next info hinfo =>
    simp only [TeeState.view] at hattested ⊢
    cases hstored : before.storedAttestations[info.signPk]? with
    | none => simp [hstored] at hattested
    | some stored =>
      simp only [hstored, Option.map_some, Bool.and_eq_true, beq_iff_eq] at hattested
      have hnotSubmitter : stored.nodeId.accountId ≠ submitter := by
        rw [hattested.1]
        exact hother
      rw [hkeeps info.signPk stored hstored hnotSubmitter]
      simpa using hattested

/-- A submission keeps the attestations of others, and with them the attested participants, exactly
when no attestation of another account is stored under the submitted TLS key. -/
theorem submit_keeps_other_attestations_iff
    (hok : self.submitParticipantInfo host context attestation tlsPublicKey = .ok next) :
    (KeepsAttestationsOfOthers context.signerAccountId self.teeState next.teeState ∧
        KeepsOthersAttested context.signerAccountId
          (self.teeState.view context self.teeUpgradeDeadlineDurationSeconds)
          (next.teeState.view context self.teeUpgradeDeadlineDurationSeconds)) ↔
      ∀ stored, self.teeState.storedAttestations[tlsPublicKey]? = some stored →
        stored.nodeId.accountId = context.signerAccountId := by
  obtain ⟨_, hnext⟩ := submitParticipantInfo_eq_ok hok
  have hstored := congrArg (fun contract ↦ contract.teeState.storedAttestations) hnext
  dsimp only at hstored
  constructor
  · rintro ⟨hkeeps, -⟩ stored hbefore
    by_contra hother
    -- the entry would still be there, but the submitter's has taken its place
    have hafter := hkeeps tlsPublicKey stored hbefore hother
    rw [hstored, TreeMap.getElem?_insert_self] at hafter
    exact hother (congrArg (fun stored ↦ stored.nodeId.accountId) (Option.some_inj.mp hafter)).symm
  · intro hown
    have hkeeps : KeepsAttestationsOfOthers context.signerAccountId self.teeState
        next.teeState := by
      intro key stored hbefore hother
      have hne : ¬ compare tlsPublicKey key = .eq := by
        intro heq
        rw [← Std.LawfulEqOrd.eq_of_compare heq] at hbefore
        exact hother (hown stored hbefore)
      rw [hstored, TreeMap.getElem?_insert, if_neg hne]
      exact hbefore
    exact ⟨hkeeps, keepsOthersAttested_of_keepsAttestations hkeeps _⟩

end Submission

namespace SubmitterAndParticipant

/-- A host that converts every key and charges nothing. -/
def localHost : AttestationHost where
  getDockerComposeHash := fun hash ↦ hash
  imageHashEvent := fun _ ↦ .error (.quote "no event log")
  composeHashEvent := fun _ ↦ .error (.quote "no event log")
  verifyQuote := fun _ _ _ ↦ .error (.quote "no quote")
  ed25519Bytes := fun _ ↦ some []
  storageUsage := fun _ ↦ 0
  storageByteCost := 1

/-- Two participants whose TLS keys have their names. -/
def participants : Participants where
  nextId := 2
  participants :=
    [("alice", 0, { url := "", signPk := "alice" }), ("bob", 1, { url := "", signPk := "bob" })]

/-- A network of the two, with the attestations of a fresh deployment. -/
def network : TeeContract where
  contract :=
    { protocolState := .running (RunningContractState.new {} { epochId := 0, domains := [] }
        { participants, threshold := 2 } {})
      acceptRequests := true
      keyEventTimeoutBlocks := 10
      ongoingMigrations := ∅ }
  teeState := TeeState.withMockedParticipantAttestations participants
  teeUpgradeDeadlineDurationSeconds := 100

def contextOf (account : AccountId) : Context where
  signerAccountId := account
  signerAccountPk := account
  predecessorAccountId := account
  blockHeight := 5
  blockTimestamp := 0
  attachedDeposit := 0

/-- The contract after a submission of a mock attestation. -/
def submitted (account : AccountId) (tlsPublicKey : PublicKey) : TeeContract :=
  network.apply localHost
    { context := contextOf account
      method := .submitParticipantInfo (some (.mock .valid)) tlsPublicKey }

end SubmitterAndParticipant

open SubmitterAndParticipant in
theorem submitted_eq_ok (account : AccountId) (tlsPublicKey : PublicKey) :
    network.submitParticipantInfo localHost (contextOf account) (some (.mock .valid))
      tlsPublicKey = .ok (submitted account tlsPublicKey) := by
  have hok : ∃ next, network.submitParticipantInfo localHost (contextOf account)
      (some (.mock .valid)) tlsPublicKey = .ok next := by
    have hpaid : ∀ before after, payForStorage localHost (contextOf account) before after =
        .ok () := by
      intro _ _
      simp [payForStorage, storageCost, localHost, require]
    obtain ⟨⟨teeState, insertion⟩, hadded⟩ : ∃ added, network.teeState.addParticipant localHost
        (contextOf account) network.teeUpgradeDeadlineDurationSeconds
        { accountId := account, tlsPublicKey, accountPublicKey := some account }
        (.mock .valid) = .ok added := ⟨_, rfl⟩
    exact ⟨{ network with teeState },
      submitParticipantInfo_eq_ok_of_paid rfl hadded (hpaid network.teeState teeState)⟩
  obtain ⟨_, hnext⟩ := hok
  rw [hnext]
  simp [submitted, apply, perform, hnext, mapErr]

open SubmitterAndParticipant in
/-- A new node of alice, under a TLS key that nobody has used, leaves bob alone. -/
theorem submit_under_new_key_keeps_bob :
    KeepsAttestationsOfOthers "alice" network.teeState (submitted "alice" "new key").teeState := by
  refine ((submit_keeps_other_attestations_iff (submitted_eq_ok "alice" "new key")).mpr
    fun stored hstored ↦ ?_).1
  have hnone : network.teeState.storedAttestations["new key"]? = none := by decide +kernel
  rw [hnone] at hstored
  cases hstored

open SubmitterAndParticipant in
/-- A stranger submits a mock attestation for the TLS key of bob, and bob is attested no more. -/
theorem stranger_replaces_attestation_of_bob :
    network.submitParticipantInfo localHost
        (contextOf "stranger") (some (.mock .valid)) "bob" =
          .ok (submitted "stranger" "bob") ∧
      ¬ KeepsAttestationsOfOthers "stranger" network.teeState
        (submitted "stranger" "bob").teeState ∧
      (network.teeState.view (contextOf "bob") 100
        ).isCallerAnAttestedParticipant (contextOf "bob").toEnv
          participants = true ∧
      ((submitted "stranger" "bob").teeState.view (contextOf "bob") 100
        ).isCallerAnAttestedParticipant (contextOf "bob").toEnv
          participants = false := by
  refine ⟨submitted_eq_ok _ _, ?_, by decide +kernel, by decide +kernel⟩
  intro hkeeps
  have hafter := hkeeps "bob"
    { nodeId := { accountId := "bob", tlsPublicKey := "bob", accountPublicKey := none }
      verifiedAttestation := .mock .valid } (by decide +kernel) (by decide)
  exact absurd hafter (by decide +kernel)

end TeeContract

end NearMpc.Contract
