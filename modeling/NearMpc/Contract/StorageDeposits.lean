import NearMpc.Contract.AttestationOwnership

/-!
# The deposit for the storage of an attestation

`submit_participant_info` measures the storage in use before and after it stores the attestation,
and charges the caller for the difference. The attestations are a map inside the contract's own
struct, which is written to storage only when the method has returned. Both measurements are
therefore the same, whatever is stored: nothing is charged, and the whole deposit is refunded.
-/

set_option autoImplicit false

namespace NearMpc.Contract

open Library Library.Outcome

namespace TeeContract

/-- The caller has to pay: the attestation is new, or the caller is no participant. -/
def MustPay (self : TeeContract) (context : Context) (insertion : ParticipantInsertion) : Prop :=
  insertion = .newlyInsertedParticipant ∨
    self.contract.protocolState.authenticateUpdateVote context.toEnv ≠ .ok ()

instance (self : TeeContract) (context : Context) (insertion : ParticipantInsertion) :
    Decidable (self.MustPay context insertion) := inferInstanceAs (Decidable (_ ∨ _))

/-- What a submission transfers back to the caller. -/
def refund (host : AttestationHost) (self : TeeContract) (context : Context)
    (insertion : ParticipantInsertion) (after : TeeState) : ℕ :=
  if self.MustPay context insertion then
    context.attachedDeposit - storageCost host self.teeState after
  else 0

variable (entrySize : PublicKey → NodeAttestation → ℕ)

/-- The bytes that the attestation under a key takes in the stored contract. -/
def storedBytes (state : TeeState) (key : PublicKey) : ℕ :=
  (state.storedAttestations[key]?).elim 0 (entrySize key)

variable (host : AttestationHost)

/-- The price of the bytes that are stored in addition when the call has ended. -/
def addedCost (key : PublicKey) (before after : TeeState) : ℕ :=
  min maxCost (host.storageByteCost *
    (storedBytes entrySize after key - storedBytes entrySize before key))

/-- The deposit covers the storage that the attestation adds, and the rest is refunded. -/
def PaidFor (self : TeeContract) (context : Context) (key : PublicKey)
    (insertion : ParticipantInsertion) (after : TeeState) : Prop :=
  addedCost entrySize host key self.teeState after ≤ context.attachedDeposit ∧
    self.refund host context insertion after =
      context.attachedDeposit - addedCost entrySize host key self.teeState after

variable {host : AttestationHost} {self : TeeContract} {context : Context}
  {tlsPublicKey : PublicKey}

/-- Nothing is charged while nothing is written. -/
theorem storageCost_unwritten
    (hunwritten : ∀ before after, host.storageUsage before = host.storageUsage after)
    (before after : TeeState) : storageCost host before after = 0 := by
  rw [storageCost, hunwritten after before, Nat.add_sub_cancel_left, Nat.mod_self, Nat.mul_zero,
    Nat.min_zero]

/-- Where the storage in use does not change during a call, a submission by a caller that has to pay
is paid for exactly if storage is free or the attestation takes no more bytes than the one that was
stored under its key. -/
theorem submission_paidFor_iff
    (hunwritten : ∀ before after, host.storageUsage before = host.storageUsage after)
    {attestation : Attestation} {teeState : TeeState} {insertion : ParticipantInsertion}
    (hcaller : context.signerAccountId = context.predecessorAccountId)
    (hadded : self.teeState.addParticipant host context self.teeUpgradeDeadlineDurationSeconds
      { accountId := context.signerAccountId
        tlsPublicKey
        accountPublicKey := some context.signerAccountPk } attestation = .ok (teeState, insertion))
    (hpays : self.MustPay context insertion) :
    (∀ next,
        self.submitParticipantInfo host context (some attestation) tlsPublicKey = .ok next →
          self.PaidFor entrySize host context tlsPublicKey insertion next.teeState) ↔
      host.storageByteCost = 0 ∨
        storedBytes entrySize teeState tlsPublicKey ≤
          storedBytes entrySize self.teeState tlsPublicKey := by
  have hfree := storageCost_unwritten hunwritten self.teeState teeState
  have hok := submitParticipantInfo_eq_ok_of_paid hcaller hadded
    (by simp [payForStorage, hfree, require])
  have hprice : self.PaidFor entrySize host context tlsPublicKey insertion teeState ↔
      addedCost entrySize host tlsPublicKey self.teeState teeState = 0 := by
    rw [PaidFor, refund, if_pos hpays, hfree]
    omega
  have hzero : addedCost entrySize host tlsPublicKey self.teeState teeState = 0 ↔
      host.storageByteCost = 0 ∨ storedBytes entrySize teeState tlsPublicKey ≤
        storedBytes entrySize self.teeState tlsPublicKey := by
    rw [addedCost, Nat.min_eq_zero_iff, Nat.mul_eq_zero, Nat.sub_eq_zero_iff_le]
    exact or_iff_right (by decide)
  rw [← hzero, ← hprice]
  constructor
  · intro hpaid
    exact hpaid _ hok
  · rintro hpaid next hnext
    obtain rfl := ok.inj (hok.symm.trans hnext)
    exact hpaid

open SubmitterAndParticipant

/-- Every attestation takes a hundred bytes. -/
def hundredBytes : PublicKey → NodeAttestation → ℕ := fun _ _ ↦ 100

/-- A stranger replaces the attestation of bob by one of the same size, for which nothing is due. -/
theorem submission_paidFor_replaced :
    network.MustPay (contextOf "stranger") .updatedExistingParticipant ∧
      network.PaidFor hundredBytes localHost (contextOf "stranger") "bob"
        .updatedExistingParticipant (submitted "stranger" "bob").teeState := by
  have hpays : network.MustPay (contextOf "stranger") .updatedExistingParticipant := by
    decide +kernel
  refine ⟨hpays, (submission_paidFor_iff hundredBytes (fun _ _ ↦ rfl) rfl rfl hpays).mpr
    (Or.inr ?_) _ (submitted_eq_ok "stranger" "bob")⟩
  decide +kernel

/-- Alice stores an attestation under a new key without a deposit. -/
theorem new_attestation_unpaid :
    network.submitParticipantInfo localHost (contextOf "alice") (some (.mock .valid)) "new key" =
        .ok (submitted "alice" "new key") ∧
      network.MustPay (contextOf "alice") .newlyInsertedParticipant ∧
      (contextOf "alice").attachedDeposit = 0 ∧
      addedCost hundredBytes localHost "new key" network.teeState
        (submitted "alice" "new key").teeState = 100 :=
  ⟨submitted_eq_ok _ _, Or.inl rfl, rfl, by decide +kernel⟩

end TeeContract

end NearMpc.Contract
