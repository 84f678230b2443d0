import NearMpc.Contract.Parameters

/-!
# Domains, keysets and key events

The registry of domains, the keyset of an epoch, and the key event that generates or reshares the
key of one domain. Follows `primitives/domain.rs`, `primitives/key_state.rs` and
`state/key_event.rs`.

`DomainRegistry.Ordered` is the registry's invariant: the domain ids increase strictly and stay
below `nextDomainId`. `addDomains_eq_ok` and `start_eq_ok` say everything a successful call of
the two functions does.
-/

set_option autoImplicit false

namespace NearMpc.Contract

open Library Library.Outcome
open Std (TreeMap)

/-! ### Domains -/

structure DomainConfig where
  id : DomainId
  scheme : SignatureScheme
  purpose : DomainPurpose
deriving DecidableEq, Repr

def isValidSchemeForPurpose : DomainPurpose → SignatureScheme → Bool
  | .sign, .secp256k1 => true
  | .sign, .v2Secp256k1 => true
  | .sign, .ed25519 => true
  | .foreignTx, .secp256k1 => true
  | .ckd, .bls12381 => true
  | _, _ => false

structure DomainRegistry where
  domains : List DomainConfig := []
  nextDomainId : ℕ := 0
deriving DecidableEq, Repr

namespace DomainRegistry

def addDomain (self : DomainRegistry) (scheme : SignatureScheme) (purpose : DomainPurpose) :
    DomainRegistry × DomainId :=
  let domain : DomainConfig := { id := self.nextDomainId, scheme, purpose }
  ({ domains := self.domains ++ [domain]
     nextDomainId := (self.nextDomainId + 1) % counterLimit }, domain.id)

/-- The given domains must carry the ids `nextDomainId`, `nextDomainId + 1`, ... in this order. -/
def addDomains (self : DomainRegistry) : List DomainConfig → Outcome Error DomainRegistry
  | [] => .ok self
  | domain :: rest => do
      let (newRegistry, newDomainId) := self.addDomain domain.scheme domain.purpose
      require (newDomainId = domain.id) (.newDomainIdsNotContiguous newDomainId)
      newRegistry.addDomains rest

def retainDomains (self : DomainRegistry) (numDomains : ℕ) : DomainRegistry :=
  { self with domains := self.domains.take numDomains }

def getDomainByIndex (self : DomainRegistry) (index : ℕ) : Option DomainConfig :=
  self.domains[index]?

def getDomainByDomainId (self : DomainRegistry) (id : DomainId) : Option DomainConfig :=
  self.domains.find? fun domain ↦ domain.id == id

def fromRawValidated (domains : List DomainConfig) (nextDomainId : ℕ) :
    Outcome Error DomainRegistry := do
  let registry : DomainRegistry := { domains, nextDomainId }
  require (∀ pair ∈ registry.domains.zip registry.domains.tail, pair.1.id < pair.2.id)
    .invalidDomains
  require (∀ largest ∈ registry.domains.getLast?, largest.id < registry.nextDomainId)
    .invalidDomains
  return registry

/-- Domain ids increase strictly and stay below the next id to hand out. -/
structure Ordered (registry : DomainRegistry) : Prop where
  increasing : registry.domains.Pairwise fun left right ↦ left.id < right.id
  below : ∀ domain ∈ registry.domains, domain.id < registry.nextDomainId

theorem ordered_default : Ordered {} where
  increasing := List.Pairwise.nil
  below := by simp

variable {self : DomainRegistry}

theorem Ordered.retainDomains (hordered : self.Ordered) (numDomains : ℕ) :
    (self.retainDomains numDomains).Ordered where
  increasing := hordered.increasing.sublist (List.take_sublist numDomains self.domains)
  below := fun domain hdomain ↦ hordered.below domain (List.mem_of_mem_take hdomain)

variable {domains : List DomainConfig}

/-- Neighbouring ids increase exactly when all do. -/
private theorem pairwise_of_zip_tail
    (hzip : ∀ pair ∈ domains.zip domains.tail, pair.1.id < pair.2.id) :
    domains.Pairwise fun left right ↦ left.id < right.id := by
  have htrans : ∀ first middle last : DomainConfig,
      first.id < middle.id → middle.id < last.id → first.id < last.id :=
    fun _ _ _ hfirst hlast ↦ hfirst.trans hlast
  induction domains with
  | nil => exact List.Pairwise.nil
  | cons head rest ih =>
    cases rest with
    | nil => exact List.pairwise_singleton _ _
    | cons next =>
      have hhead : head.id < next.id := hzip (head, next) (by simp)
      have hrest := ih fun pair hpair ↦ hzip pair (by simp at hpair ⊢; exact Or.inr hpair)
      refine List.Pairwise.cons (fun domain hdomain ↦ ?_) hrest
      rcases List.mem_cons.mp hdomain with rfl | hothers
      · exact hhead
      · exact htrans head next domain hhead (List.rel_of_pairwise_cons hrest hothers)

/-- `from_raw_validated` accepts ordered registries only and changes nothing. -/
theorem fromRawValidated_eq_ok {nextDomainId registry}
    (hok : fromRawValidated domains nextDomainId = .ok registry) :
    registry = { domains, nextDomainId } ∧ registry.Ordered := by
  simp only [fromRawValidated, bind_eq_ok, require_eq_ok, exists_const, pure_eq, ok.injEq] at hok
  obtain ⟨hzip, hlast, rfl⟩ := hok
  have hincreasing := pairwise_of_zip_tail hzip
  refine ⟨rfl, hincreasing, fun domain hdomain ↦ ?_⟩
  -- the last id bounds every other one
  obtain ⟨front, last, hsplit⟩ : ∃ front last, domains = front ++ [last] :=
    ⟨_, _, (List.dropLast_append_getLast (List.ne_nil_of_mem hdomain)).symm⟩
  subst hsplit
  have hbelow : last.id < nextDomainId := hlast last (by simp)
  rcases List.mem_append.mp hdomain with hfront | hsingle
  · exact ((List.pairwise_append.mp hincreasing).2.2 domain hfront last (by simp)).trans hbelow
  · rwa [List.mem_singleton.mp hsingle]

theorem Ordered.addDomain (hordered : self.Ordered) (scheme : SignatureScheme)
    (purpose : DomainPurpose) (hlimit : self.nextDomainId + 1 < counterLimit) :
    (self.addDomain scheme purpose).1.Ordered where
  increasing := by
    refine List.pairwise_append.mpr ⟨hordered.increasing, List.pairwise_singleton _ _, ?_⟩
    intro left hleft _ hright
    rw [List.mem_singleton.mp hright]
    exact hordered.below left hleft
  below := by
    intro domain hdomain
    simp only [DomainRegistry.addDomain, Nat.mod_eq_of_lt hlimit]
    rcases List.mem_append.mp hdomain with hold | hnew
    · exact (hordered.below domain hold).trans (Nat.lt_succ_self _)
    · rw [List.mem_singleton.mp hnew]
      exact Nat.lt_succ_self _

/-- Adding domains appends exactly the given ones, the first under the old `nextDomainId`, and
keeps the registry ordered. -/
theorem addDomains_eq_ok {newRegistry} (hok : self.addDomains domains = .ok newRegistry)
    (hordered : self.Ordered) (hlimit : self.nextDomainId + domains.length < counterLimit) :
    newRegistry.Ordered ∧ newRegistry.domains = self.domains ++ domains ∧
      newRegistry.nextDomainId = self.nextDomainId + domains.length ∧
      (∀ domain ∈ domains.head?, domain.id = self.nextDomainId) := by
  induction domains generalizing self with
  | nil =>
    obtain rfl : self = newRegistry := by simpa [addDomains] using hok
    exact ⟨hordered, by simp, by simp, by simp⟩
  | cons domain _ ih =>
    simp only [addDomains, bind_eq_ok, require_eq_ok, exists_const] at hok
    obtain ⟨hid, hrest⟩ := hok
    have hsucc : self.nextDomainId + 1 < counterLimit := by
      simp only [List.length_cons] at hlimit
      omega
    have hnext : (self.addDomain domain.scheme domain.purpose).1.nextDomainId =
        self.nextDomainId + 1 := Nat.mod_eq_of_lt hsucc
    obtain ⟨hnew, hdomains, hnextId, -⟩ := ih hrest
      (hordered.addDomain domain.scheme domain.purpose hsucc)
      (by rw [hnext]; simp only [List.length_cons] at hlimit; omega)
    have hdomain : (⟨self.nextDomainId, domain.scheme, domain.purpose⟩ : DomainConfig) =
        domain := by
      cases domain
      simp only [DomainRegistry.addDomain] at hid
      simp [hid]
    refine ⟨hnew, ?_, ?_, ?_⟩
    · rw [hdomains]
      simp [DomainRegistry.addDomain, hdomain]
    · rw [hnextId, hnext, List.length_cons]
      omega
    · simpa [DomainRegistry.addDomain] using hid.symm

/-- Ids increase from one index to the next. -/
theorem Ordered.lt_of_index_succ (hordered : self.Ordered) {index domain nextDomain}
    (hdomain : self.domains[index]? = some domain)
    (hnext : self.getDomainByIndex (index + 1) = some nextDomain) : domain.id < nextDomain.id := by
  obtain ⟨hlt, rfl⟩ := List.getElem?_eq_some_iff.mp hdomain
  obtain ⟨hltNext, rfl⟩ := List.getElem?_eq_some_iff.mp hnext
  exact List.pairwise_iff_getElem.mp hordered.increasing index (index + 1) hlt hltNext
    (Nat.lt_succ_self index)

/-- The index before the first missing one is the last. -/
theorem index_succ_eq_length {index domain} (hdomain : self.domains[index]? = some domain)
    (hnone : self.getDomainByIndex (index + 1) = none) : index + 1 = self.domains.length := by
  obtain ⟨_, -⟩ := List.getElem?_eq_some_iff.mp hdomain
  have hge := List.getElem?_eq_none_iff.mp hnone
  omega

end DomainRegistry

/-! ### Votes to add domains -/

/-- One vote per participant id. -/
structure AddDomainsVotes where
  proposalByAccount : TreeMap ParticipantId (List DomainConfig) := ∅

namespace AddDomainsVotes

variable (self : AddDomainsVotes)

/-- Registers a vote, replacing the participant's earlier one, and counts the votes for the same
list of domains. -/
def vote (proposal : List DomainConfig) (participant : ParticipantId) : AddDomainsVotes × ℕ :=
  let votes := self.proposalByAccount.insert participant proposal
  ({ proposalByAccount := votes }, votes.toList.countP fun vote ↦ vote.2 == proposal)

/-- The votes whose participant id is among the participants. -/
def getRemainingVotes (participants : Participants) : AddDomainsVotes :=
  { proposalByAccount := TreeMap.ofList (self.proposalByAccount.toList.filter fun vote ↦
      participants.isParticipantGivenParticipantId vote.1) }

end AddDomainsVotes

/-! ### Keysets -/

/-- A public key of the network, by curve. The two representations that the source keeps of an
Ed25519 key determine each other; the compressed one stands for both. -/
inductive PublicKeyExtended where
  | secp256k1 (nearPublicKey : PublicKey)
  | ed25519 (nearPublicKeyCompressed : PublicKey)
  | bls12381 (publicKey : PublicKey)
deriving DecidableEq, Repr

structure KeyForDomain where
  domainId : DomainId
  key : PublicKeyExtended
  attempt : AttemptId
deriving DecidableEq, Repr

structure Keyset where
  epochId : EpochId
  domains : List KeyForDomain
deriving DecidableEq, Repr

def Keyset.publicKey (self : Keyset) (domainId : DomainId) : Outcome Error PublicKeyExtended := do
  let key ← okOr (self.domains.find? fun key ↦ key.domainId == domainId) .noSuchDomain
  return key.key

/-- Identifies one attempt to generate or reshare one key. -/
structure KeyEventId where
  epochId : EpochId
  domainId : DomainId
  attemptId : AttemptId
deriving DecidableEq, Repr

/-! ### Key events -/

/-- A single attempt at generating or resharing a key. -/
structure KeyEventInstance where
  attemptId : AttemptId
  startedIn : ℕ
  expiresOn : ℕ
  completed : Finset ParticipantId
  publicKey : Option PublicKeyExtended
deriving DecidableEq

/-- See `KeyEventInstance.voteSuccess`. -/
inductive VoteSuccessResult where
  | voted (count : ℕ)
  | publicKeyDisagreement
deriving DecidableEq, Repr

namespace KeyEventInstance

def new (env : Env) (attemptId : AttemptId) (timeoutBlocks : ℕ) : KeyEventInstance where
  attemptId := attemptId
  startedIn := env.blockHeight
  expiresOn := (env.blockHeight + 1 + timeoutBlocks) % counterLimit
  completed := ∅
  publicKey := none

variable (self : KeyEventInstance)

def active (env : Env) : Bool := env.blockHeight < self.expiresOn

/-- Commits the candidate's vote, unless its key disagrees with the one voted for so far. -/
def voteSuccess (candidate : ParticipantId) (publicKey : PublicKeyExtended) :
    Outcome Error (KeyEventInstance × VoteSuccessResult) :=
  match self.publicKey with
  | some existingPublicKey =>
      if existingPublicKey ≠ publicKey then .ok (self, .publicKeyDisagreement)
      else commit self
  | none => commit { self with publicKey := some publicKey }
where
  /-- The tail both branches share. -/
  commit (self : KeyEventInstance) : Outcome Error (KeyEventInstance × VoteSuccessResult) := do
    require (candidate ∉ self.completed) .voteAlreadySubmitted
    let completed := insert candidate self.completed
    return ({ self with completed }, .voted completed.card)

end KeyEventInstance

/-- The generation or resharing of the key of one domain in one epoch. -/
structure KeyEvent where
  epochId : EpochId
  domain : DomainConfig
  parameters : ThresholdParameters
  currentInstance : Option KeyEventInstance
  nextAttemptId : AttemptId
deriving DecidableEq

namespace KeyEvent

def new (epochId : EpochId) (domain : DomainConfig) (proposedParameters : ThresholdParameters) :
    KeyEvent where
  epochId := epochId
  domain := domain
  parameters := proposedParameters
  currentInstance := none
  nextAttemptId := 0

variable (self : KeyEvent) (env : Env)

def cleanupIfTimedOut : KeyEvent :=
  { self with currentInstance := self.currentInstance.filter fun current ↦ current.active env }

/-- The first participant with the lowest id, as `min_by_key` returns it. -/
def leader (self : KeyEvent) : Option ParticipantEntry :=
  self.parameters.participants.participants.foldl (fun best entry ↦
    match best with
    | none => some entry
    | some least => if entry.2.1 < least.2.1 then some entry else some least) none

def verifyLeader : Outcome Error Unit := do
  let entry ← unwrap self.leader
  require (entry.1 = env.signerAccountId) .voterNotLeader

/-- The id the next attempt must be started under. -/
def expectedKeyEventId (self : KeyEvent) : KeyEventId where
  epochId := self.epochId
  domainId := self.domain.id
  attemptId := self.nextAttemptId

variable (keyEventId : KeyEventId)

/-- Starts a new attempt as the leader, if none is active. -/
def start (timeoutBlocks : ℕ) : Outcome Error KeyEvent := do
  let self := self.cleanupIfTimedOut env
  require (self.currentInstance = none) .activeKeyEvent
  require (keyEventId = self.expectedKeyEventId) .keyEventIdMismatch
  self.verifyLeader env
  return { self with
    currentInstance := some (KeyEventInstance.new env self.nextAttemptId timeoutBlocks)
    nextAttemptId := AttemptId.next self.nextAttemptId }

/-- The signer may vote and the id is that of the active attempt. -/
def verifyVote : Outcome Error (KeyEvent × ParticipantId) := do
  let candidate ← authenticatedParticipantId env self.parameters.participants
  let self := self.cleanupIfTimedOut env
  let current ← okOr self.currentInstance .noActiveKeyEvent
  require (keyEventId.epochId = self.epochId ∧ keyEventId.domainId = self.domain.id ∧
    keyEventId.attemptId = current.attemptId) .keyEventIdMismatch
  return (self, candidate)

/-- Casts a vote for a public key; true when every participant has now voted for the same key.
A disagreement aborts the attempt. -/
def voteSuccess (publicKey : PublicKeyExtended) : Outcome Error (KeyEvent × Bool) := do
  let (self, candidate) ← self.verifyVote env keyEventId
  let current ← unwrap self.currentInstance
  let (current, result) ← current.voteSuccess candidate publicKey
  match result with
  | .voted count =>
      return ({ self with currentInstance := some current },
        decide (count = self.parameters.participants.len))
  | .publicKeyDisagreement => return ({ self with currentInstance := none }, false)

/-- Casts a vote to abort the current attempt. -/
def voteAbort : Outcome Error KeyEvent := do
  let (self, candidate) ← self.verifyVote env keyEventId
  let current ← unwrap self.currentInstance
  require (candidate ∉ current.completed) .voteAlreadySubmitted
  return { self with currentInstance := none }

/-! What the calls leave alone: only the attempt in progress and the attempt counter change. -/

variable (epochId : EpochId) (domain : DomainConfig) (parameters : ThresholdParameters)

@[simp] theorem new_epochId : (new epochId domain parameters).epochId = epochId := rfl

@[simp] theorem new_domain : (new epochId domain parameters).domain = domain := rfl

/-- Two key events of one domain, epoch and attempt counter. -/
structure SameEvent (before after : KeyEvent) : Prop where
  epochId : after.epochId = before.epochId
  domain : after.domain = before.domain
  nextAttemptId : after.nextAttemptId = before.nextAttemptId

variable {self : KeyEvent} {env : Env} {keyEventId : KeyEventId}

/-- A successful start takes the expected id and advances the attempt counter. -/
theorem start_eq_ok {started timeoutBlocks}
    (hok : self.start env keyEventId timeoutBlocks = .ok started) :
    keyEventId = self.expectedKeyEventId ∧ started.epochId = self.epochId ∧
      started.domain = self.domain ∧
      started.nextAttemptId = AttemptId.next self.nextAttemptId := by
  simp only [start, bind_eq_ok, require_eq_ok, exists_const, pure_eq, ok.injEq] at hok
  obtain ⟨-, hid, -, -, rfl⟩ := hok
  exact ⟨hid, rfl, rfl, rfl⟩

theorem verifyVote_eq_ok {verified candidate}
    (hok : self.verifyVote env keyEventId = .ok (verified, candidate)) :
    verified = self.cleanupIfTimedOut env ∧ keyEventId.epochId = self.epochId ∧
      keyEventId.domainId = self.domain.id := by
  simp only [verifyVote, bind_eq_ok, require_eq_ok, exists_const, pure_eq, ok.injEq,
    Prod.mk.injEq] at hok
  obtain ⟨_, -, _, -, hid, rfl, -⟩ := hok
  exact ⟨rfl, hid.1, hid.2.1⟩

/-- A successful vote names the event's epoch and domain and changes neither them nor the attempt
counter. -/
theorem voteSuccess_eq_ok {voted publicKey all}
    (hok : self.voteSuccess env keyEventId publicKey = .ok (voted, all)) :
    SameEvent self voted ∧ keyEventId.epochId = self.epochId ∧
      keyEventId.domainId = self.domain.id := by
  simp only [voteSuccess, bind_eq_ok, Prod.exists] at hok
  obtain ⟨_, _, hverify, _, -, _, result, -, hresult⟩ := hok
  obtain ⟨rfl, hepoch, hdomain⟩ := verifyVote_eq_ok hverify
  cases result <;> obtain ⟨rfl, -⟩ := Prod.mk.inj (ok.inj hresult) <;>
    exact ⟨⟨rfl, rfl, rfl⟩, hepoch, hdomain⟩

theorem voteAbort_eq_ok {aborted} (hok : self.voteAbort env keyEventId = .ok aborted) :
    aborted = { self with currentInstance := none } := by
  simp only [voteAbort, bind_eq_ok, Prod.exists, require_eq_ok, exists_const, pure_eq,
    ok.injEq] at hok
  obtain ⟨_, _, hverify, _, -, -, rfl⟩ := hok
  rw [(verifyVote_eq_ok hverify).1]
  rfl

end KeyEvent

end NearMpc.Contract
