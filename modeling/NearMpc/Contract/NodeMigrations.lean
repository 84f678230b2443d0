import NearMpc.Contract.TeeState

/-!
# Migrations of nodes

A participant moves to another node in two calls: one names the destination, the other puts it in
force once the destination has a valid attestation. Under the same accounts the contract keeps the
backup services. After a resharing it calls itself to forget what belongs to accounts that have
left.

Both results are about a lookup by the wrong part of an identity. The cleanup visits the accounts
that have a backup service, so a migration without one stays behind. The check of the destination
finds an attestation by its TLS key alone, so the attestation may belong to another account, which
the later check of the caller refuses.
-/

set_option autoImplicit false

namespace NearMpc.Contract

open Library Library.Outcome
open Std (TreeMap)

/-! ### Orphaned migrations -/

def ProtocolContractState.isExistingOrProspectiveParticipant (self : ProtocolContractState)
    (accountId : AccountId) : Outcome Error Bool :=
  match self with
  | .initializing state =>
      .ok (state.generatingKey.parameters.participants.isParticipantGivenAccountId accountId)
  | .running state => .ok (state.parameters.participants.isParticipantGivenAccountId accountId)
  | .resharing state =>
      .ok (state.previousRunningState.parameters.participants.isParticipantGivenAccountId
          accountId ||
        state.resharingKey.parameters.participants.isParticipantGivenAccountId accountId)
  | .notInitialized => .err .unexpectedProtocolState

structure BackupServiceInfo where
  publicKey : PublicKey
deriving DecidableEq, Repr

structure NodeMigrations where
  backupServicesInfo : TreeMap AccountId BackupServiceInfo
  ongoingMigrations : TreeMap AccountId DestinationNodeInfo

namespace NodeMigrations

variable {state : ProtocolContractState} {account : AccountId} (self : NodeMigrations)

def removeAccountData (accountId : AccountId) : NodeMigrations where
  backupServicesInfo := self.backupServicesInfo.erase accountId
  ongoingMigrations := self.ongoingMigrations.erase accountId

/-- The loop of the cleanup. -/
def cleanupAccounts (state : ProtocolContractState) :
    List AccountId → NodeMigrations → Outcome Error NodeMigrations
  | [], self => .ok self
  | accountId :: rest, self => do
      let isParticipant ← state.isExistingOrProspectiveParticipant accountId
      cleanupAccounts state rest (if isParticipant then self else self.removeAccountData accountId)

def cleanupOrphanedNodeMigrations (state : ProtocolContractState) : Outcome Error NodeMigrations :=
  cleanupAccounts state self.backupServicesInfo.keys self

/-- Both entries of the account are as before if it stays, and removed if not. -/
def EntriesOf (account : AccountId) (before after : NodeMigrations) (stays : Prop)
    [Decidable stays] : Prop :=
  if stays then
    after.backupServicesInfo[account]? = before.backupServicesInfo[account]? ∧
      after.ongoingMigrations[account]? = before.ongoingMigrations[account]?
  else after.backupServicesInfo[account]? = none ∧ after.ongoingMigrations[account]? = none

/-- The entries of participants are as before, and no other account has one. -/
def CleanedUp (state : ProtocolContractState) (before after : NodeMigrations) : Prop :=
  ∀ account,
    EntriesOf account before after (state.isExistingOrProspectiveParticipant account = .ok true)

/-- The loop removes both entries of the accounts that it visits and that do not take part. -/
theorem cleanupAccounts_eq (hinitialized : state ≠ .notInitialized) (accounts : List AccountId)
    (before : NodeMigrations) :
    ∃ after, cleanupAccounts state accounts before = .ok after ∧ ∀ account,
      EntriesOf account before after
        (account ∈ accounts → state.isExistingOrProspectiveParticipant account = .ok true) := by
  induction accounts generalizing before with
  | nil => exact ⟨before, rfl, by simp [EntriesOf]⟩
  | cons visited _ ih =>
    obtain ⟨isParticipant, hvisited⟩ :
        ∃ isParticipant, state.isExistingOrProspectiveParticipant visited = .ok isParticipant := by
      cases state <;> first | exact ⟨_, rfl⟩ | exact absurd rfl hinitialized
    obtain ⟨after, hloop, hafter⟩ :=
      ih (if isParticipant then before else before.removeAccountData visited)
    refine ⟨after, by rw [cleanupAccounts, hvisited]; exact hloop, fun account ↦ ?_⟩
    have hentry := hafter account
    by_cases hsame : visited = account
    · subst hsame
      cases isParticipant <;> simp_all [EntriesOf, removeAccountData, TreeMap.getElem?_erase]
    · have hother : account ≠ visited := Ne.symm hsame
      cases isParticipant <;> simp_all [EntriesOf, removeAccountData, TreeMap.getElem?_erase]

/-- The cleanup does what it is for exactly if every account that has left with an ongoing migration
has a backup service too. -/
theorem orphanedMigrations_removed_iff (hinitialized : state ≠ .notInitialized)
    (migrations : NodeMigrations) :
    (∃ after, migrations.cleanupOrphanedNodeMigrations state = .ok after ∧
        CleanedUp state migrations after) ↔
      ∀ account ∈ migrations.ongoingMigrations,
        state.isExistingOrProspectiveParticipant account ≠ .ok true →
        account ∈ migrations.backupServicesInfo := by
  obtain ⟨after, hloop, hafter⟩ :=
    cleanupAccounts_eq hinitialized migrations.backupServicesInfo.keys migrations
  simp only [TreeMap.mem_keys, EntriesOf] at hafter
  simp only [CleanedUp, EntriesOf]
  constructor
  · rintro ⟨cleaned, hcleanup, hcleaned⟩ account hongoing hleft
    obtain rfl := ok.inj (hloop.symm.trans hcleanup)
    by_contra hbackup
    -- the loop did not come by the account
    have hkept := hafter account
    have hgone := hcleaned account
    rw [if_pos fun hvisited ↦ absurd hvisited hbackup] at hkept
    rw [if_neg hleft, hkept.2] at hgone
    simp [TreeMap.mem_iff_isSome_getElem?, hgone.2] at hongoing
  · intro hcovered
    refine ⟨after, hloop, fun account ↦ ?_⟩
    have hentry := hafter account
    by_cases hstays : state.isExistingOrProspectiveParticipant account = .ok true
    · simpa [hstays] using hentry
    · by_cases hbackup : account ∈ migrations.backupServicesInfo
      · simpa [hstays, hbackup] using hentry
      · have hongoing : account ∉ migrations.ongoingMigrations :=
          fun hmem ↦ hbackup (hcovered account hmem hstays)
        simpa [hstays, hbackup, TreeMap.getElem?_eq_none hbackup,
          TreeMap.getElem?_eq_none hongoing] using hentry

/-- A network of alice and carol. -/
def sampleState : ProtocolContractState :=
  .running (RunningContractState.new {} { epochId := 0, domains := [] }
    { participants :=
        { nextId := 2
          participants := [("alice", 0, { url := "a", signPk := "alice" }),
            ("carol", 1, { url := "c", signPk := "carol" })] }
      threshold := 2 } {})

def destination : DestinationNodeInfo where
  signerAccountPk := "key"
  destinationNodeInfo := { url := "b", signPk := "tls" }

theorem orphanedMigrations_removed_alice :
    ∃ after, cleanupOrphanedNodeMigrations ⟨∅, TreeMap.ofList [("alice", destination)]⟩
        sampleState = .ok after ∧
      CleanedUp sampleState ⟨∅, TreeMap.ofList [("alice", destination)]⟩ after := by
  refine (orphanedMigrations_removed_iff (by simp [sampleState]) _).mpr fun account hmem hleft ↦ ?_
  obtain rfl : "alice" = account := by simpa using hmem
  exact absurd rfl hleft

/-- Bob has left with an ongoing migration and no backup service. -/
theorem orphanedMigration_stays :
    ∃ after, cleanupOrphanedNodeMigrations ⟨∅, TreeMap.ofList [("bob", destination)]⟩
        sampleState = .ok after ∧
      sampleState.isExistingOrProspectiveParticipant "bob" = .ok false ∧
      after.ongoingMigrations["bob"]? = some destination :=
  ⟨_, rfl, by decide, by decide⟩

end NodeMigrations

/-! ### Concluded migrations -/

/-- Every participant keeps its id, and all but the account keep their entries. -/
def Participants.SameExcept (account : AccountId) (before after : Participants) : Prop :=
  after.nextId = before.nextId ∧
    List.Forall₂ (fun old new ↦ new.1 = old.1 ∧ new.2.1 = old.2.1 ∧ (old.1 ≠ account → new = old))
      before.participants after.participants

theorem Participants.updateEntries_eq_ok {account info entries updated}
    (hok : updateEntries account info entries = .ok updated) :
    List.Forall₂ (fun old new ↦ new.1 = old.1 ∧ new.2.1 = old.2.1 ∧ (old.1 ≠ account → new = old))
        entries updated ∧
      (updated.find? fun entry ↦ entry.1 == account).map (fun entry ↦ entry.2.2) = some info := by
  induction entries generalizing updated with
  | nil => cases hok
  | cons _ _ ih =>
    unfold updateEntries at hok
    split_ifs at hok with haccount
    · cases hok
      exact ⟨.cons ⟨rfl, rfl, fun hother ↦ absurd haccount hother⟩
        (List.forall₂_same.mpr fun _ _ ↦ ⟨rfl, rfl, fun _ ↦ rfl⟩), by simp [haccount]⟩
    · simp only [bind_eq_ok, pure_eq, ok.injEq] at hok
      obtain ⟨_, hrest, rfl⟩ := hok
      obtain ⟨hsame, hinfo⟩ := ih hrest
      exact ⟨.cons ⟨rfl, rfl, fun _ ↦ rfl⟩ hsame, by simpa [haccount] using hinfo⟩

namespace MpcContract

/-- The contract after a migration of the caller: its new entry passes for an attested participant,
and nobody else is affected. -/
def MigratedTo (before after : MpcContract) (env : Env) (tee : TeeView) : Prop :=
  ∃ running parameters, before.protocolState = .running running ∧
    after.protocolState = .running { running with parameters } ∧
    tee.isCallerAnAttestedParticipant env parameters.participants = true ∧
    parameters.threshold = running.parameters.threshold ∧
    running.parameters.participants.SameExcept env.signerAccountId parameters.participants

/-- The attestation under the TLS key of the caller's destination is the caller's own. -/
def OwnsDestination (contract : MpcContract) (env : Env) (tee : TeeState) : Prop :=
  ∀ destination ∈ contract.ongoingMigrations[env.signerAccountId]?,
    ∀ stored ∈ tee.storedAttestations[destination.destinationNodeInfo.signPk]?,
      stored.nodeId.accountId = env.signerAccountId ∧
        ∀ key ∈ stored.nodeId.accountPublicKey, key = env.signerAccountPk

/-- A migration that succeeds leaves a usable node exactly if the attestation of the destination
belongs to the caller. -/
theorem concludedMigration_usable_iff {contract next : MpcContract} {tee : TeeState}
    {context : Context} {deadlineDuration : ℕ} {keyset : Keyset}
    (hok : contract.concludeNodeMigration context.toEnv (tee.view context deadlineDuration) keyset =
      .ok next) :
    contract.MigratedTo next context.toEnv (tee.view context deadlineDuration) ↔
      contract.OwnsDestination context.toEnv tee := by
  simp only [concludeNodeMigration, assertCallerIsSigner, bind_eq_ok, guardPanic_eq_ok, pure_eq,
    exists_const, ok.injEq] at hok
  obtain ⟨_, ⟨-, rfl⟩, hok⟩ := hok
  split at hok
  next running hstate =>
    simp only [bind_eq_ok, require_eq_ok, exists_const, okOr_eq_ok, ok.injEq] at hok
    obtain ⟨-, -, destination, hdestination, -, hreverified, _, hupdated, rfl⟩ := hok
    simp only [ThresholdParameters.updateInfo, Participants.updateInfo, bind_eq_ok, pure_eq,
      ok.injEq] at hupdated
    obtain ⟨_, ⟨_, hentries, rfl⟩, rfl⟩ := hupdated
    obtain ⟨hsame, hinfo⟩ := Participants.updateEntries_eq_ok hentries
    -- an attestation that verifies is stored
    obtain ⟨stored, hstored⟩ : ∃ stored,
        tee.storedAttestations[destination.destinationNodeInfo.signPk]? = some stored := by
      rw [← Option.isSome_iff_exists]
      by_contra hnone
      simp [TeeState.view, TeeState.reverifyParticipants,
        Option.not_isSome_iff_eq_none.mp hnone] at hreverified
    simp [MigratedTo, OwnsDestination, TeeView.isCallerAnAttestedParticipant, Participants.info,
      TeeState.view, Participants.SameExcept, Option.all_eq_true, hstate, hdestination, hinfo,
      hstored, hsame]
  next => cases hok

namespace Migrating

def context : Context where
  signerAccountId := "alice"
  signerAccountPk := "key"
  predecessorAccountId := "alice"
  blockHeight := 5
  blockTimestamp := 0
  attachedDeposit := 0

def contract : MpcContract where
  protocolState := NodeMigrations.sampleState
  acceptRequests := true
  keyEventTimeoutBlocks := 10
  ongoingMigrations := TreeMap.ofList [("alice", NodeMigrations.destination)]

/-- The destination is attested for an account. -/
def attestedFor (account : AccountId) : TeeState where
  storedAttestations := (∅ : TreeMap PublicKey NodeAttestation).insert "tls"
    { nodeId := { accountId := account, tlsPublicKey := "tls", accountPublicKey := some "key" }
      verifiedAttestation := .mock .valid }

end Migrating

open Migrating in
theorem concludedMigration_usable_alice :
    ∃ next, contract.concludeNodeMigration context.toEnv ((attestedFor "alice").view context 0)
        ⟨0, []⟩ = .ok next ∧
      contract.MigratedTo next context.toEnv ((attestedFor "alice").view context 0) := by
  refine ⟨_, rfl, (@concludedMigration_usable_iff _ _ _ _ _ ⟨0, []⟩ rfl).mpr ?_⟩
  rintro _ ⟨⟩ _ ⟨⟩
  exact ⟨rfl, by simp [context]⟩

open Migrating in
/-- Alice moves to a node that bob has attested, which then does not count as alice's. -/
theorem concludedMigration_unusable :
    ∃ next participants, contract.concludeNodeMigration context.toEnv
        ((attestedFor "bob").view context 0) ⟨0, []⟩ = .ok next ∧
      next.protocolState.activeParticipants = .ok participants ∧
      ((attestedFor "bob").view context 0).isCallerAnAttestedParticipant context.toEnv
        participants = false :=
  ⟨_, _, rfl, rfl, by decide⟩

end MpcContract

end NearMpc.Contract
