import NearMpc.Contract.KeyState
import NearMpc.Threshold.Ecdsa

/-!
# Keyshares of the node

A keyshare belongs to one attempt to generate or reshare the key of one domain in one epoch. The
keyshares in use, one for each domain, are kept together as `PermanentKeyshareData`. Follows
`keyshare.rs`, `keyshare/permanent.rs` and `keyshare/compat.rs`.

`checkOverwrite` is the validation that new permanent data goes through against the data that is
stored. What it enforces is the relation `Extends`: the epoch does not fall, no domain is dropped,
a domain keeps its public key, and within one epoch its key id.
-/

set_option autoImplicit false

namespace NearMpc.Node

open Library Library.Outcome
open NearMpc.Contract (PublicKey PublicKeyExtended EpochId KeyEventId KeyForDomain Keyset)
open NearMpc.Threshold (KeygenOutput)

/-! ### Keyshares -/

inductive KeyshareError where
  | incorrectKeyId (found expected : KeyEventId)
  | incorrectPublicKey (found expected : PublicKeyExtended)
  | invalidPoint
  | moreDomainsThanExpected (epochId : EpochId) (found expected : ℕ)
  | storageIsNewer (stored requested : EpochId)
  | storageIsNotOlder (stored requested : EpochId)
  | missingTemporaryKeyshare (keyId : KeyEventId)
  | unexpectedKeyId (keyId : KeyEventId)
  | inconsistentKeyIds (keyIds : List KeyEventId)
  | noKeyshares
  | inconsistentEpochId (found expected : EpochId)
  | olderEpoch (existing new : EpochId)
  | fewerDomains (existing new : ℕ)
  | equalNumberOfDomains (epochId : EpochId)
  | differentDomainId (existing new : KeyEventId)
  | differentKeyId (existing new : KeyEventId)
  | differentPublicKey (existing new : KeyEventId)
  | backupIsNoExactMatch
  | missingKeyshare (keyId : KeyEventId)
  | mismatchWithBackup (keyIds : List KeyEventId)
  | fileExists
  | fileNotFound
  | decryptionFailed
  | deserializationFailed
  | invalidFilename (filename : String)
  | invalidInteger
deriving DecidableEq, Repr

abbrev KeyshareResult := Outcome KeyshareError

inductive Secp256k1Point where
  | infinity
  | affine (encoding : PublicKey)
deriving DecidableEq, Repr

inductive KeyshareData where
  | secp256k1 (data : KeygenOutput ℕ Secp256k1Point)
  | ed25519 (data : KeygenOutput ℕ PublicKey)
  | bls12381 (data : KeygenOutput ℕ PublicKey)
  | v2Secp256k1 (data : KeygenOutput ℕ Secp256k1Point)
deriving DecidableEq, Repr

/-- A single keyshare, corresponding to one epoch, one domain, one attempt. -/
structure Keyshare where
  keyId : KeyEventId
  data : KeyshareData
deriving DecidableEq, Repr

/-- `Secp256k1PublicKey::try_from` an affine point. -/
def Secp256k1Point.publicKey : Secp256k1Point → KeyshareResult PublicKeyExtended
  | .infinity => .err .invalidPoint
  | .affine encoding => .ok (.secp256k1 encoding)

/-- The id of the attempt that a keyset lists for a domain. -/
def keyEventIdOf (epochId : EpochId) (key : KeyForDomain) : KeyEventId where
  epochId
  domainId := key.domainId
  attemptId := key.attempt

variable {epochId : EpochId}

namespace Keyshare

def publicKey (keyshare : Keyshare) : KeyshareResult PublicKeyExtended :=
  match keyshare.data with
  | .secp256k1 data => data.publicKey.publicKey
  | .ed25519 data => .ok (.ed25519 data.publicKey)
  | .bls12381 data => .ok (.bls12381 data.publicKey)
  | .v2Secp256k1 data => data.publicKey.publicKey

def checkConsistency (keyshare : Keyshare) (epochId : EpochId) (key : KeyForDomain) :
    KeyshareResult Unit := do
  require (keyshare.keyId = keyEventIdOf epochId key)
    (.incorrectKeyId keyshare.keyId (keyEventIdOf epochId key))
  let publicKey ← keyshare.publicKey
  require (publicKey = key.key) (.incorrectPublicKey publicKey key.key)

theorem checkConsistency_eq_ok {keyshare : Keyshare} {key : KeyForDomain} {done : Unit} :
    keyshare.checkConsistency epochId key = .ok done ↔
      keyshare.keyId = keyEventIdOf epochId key ∧ keyshare.publicKey = .ok key.key := by
  simp only [checkConsistency, bind_eq_ok, require_eq_ok, exists_const]
  constructor
  · rintro ⟨hid, _, hkey, rfl⟩
    exact ⟨hid, hkey⟩
  · rintro ⟨hid, hkey⟩
    exact ⟨hid, key.key, hkey, rfl⟩

end Keyshare

/-- The loop of `verify_existing_keyshares_are_prefix_of_keyset`. -/
def checkConsistencies (epochId : EpochId) : List (Keyshare × KeyForDomain) → KeyshareResult Unit
  | [] => .ok ()
  | (keyshare, key) :: rest => do
      keyshare.checkConsistency epochId key
      checkConsistencies epochId rest

def verifyExistingKeysharesArePrefixOfKeyset (existingKeyshares : List Keyshare)
    (epochId : EpochId) (expectedKeys : List KeyForDomain) : KeyshareResult Unit := do
  require (existingKeyshares.length ≤ expectedKeys.length)
    (.moreDomainsThanExpected epochId existingKeyshares.length expectedKeys.length)
  checkConsistencies epochId (existingKeyshares.zip expectedKeys)

/-- The keyshares are those that the keyset lists, in its order. -/
def MatchesKeys (epochId : EpochId) : List Keyshare → List KeyForDomain → Prop :=
  List.Forall₂ fun keyshare key ↦
    keyshare.keyId = keyEventIdOf epochId key ∧ keyshare.publicKey = .ok key.key

theorem matchesKeys_of_verify {existingKeyshares : List Keyshare} {expectedKeys : List KeyForDomain}
    (hok : verifyExistingKeysharesArePrefixOfKeyset existingKeyshares epochId expectedKeys = .ok ())
    :
    existingKeyshares.length ≤ expectedKeys.length ∧
      MatchesKeys epochId existingKeyshares (expectedKeys.take existingKeyshares.length) := by
  simp only [verifyExistingKeysharesArePrefixOfKeyset, bind_eq_ok, require_eq_ok,
    exists_const] at hok
  obtain ⟨hlength, hloop⟩ := hok
  refine ⟨hlength, ?_⟩
  induction existingKeyshares generalizing expectedKeys with
  | nil =>
    rw [List.length_nil, List.take_zero]
    exact List.Forall₂.nil
  | cons _ _ ih =>
    cases expectedKeys with
    | nil => simp at hlength
    | cons =>
      simp only [List.zip_cons_cons, checkConsistencies, bind_eq_ok,
        Keyshare.checkConsistency_eq_ok] at hloop
      obtain ⟨_, hfirst, hrest⟩ := hloop
      rw [List.length_cons, List.take_succ_cons]
      exact List.Forall₂.cons hfirst (ih (by simpa using hlength) hrest)

/-! ### Permanent keyshares -/

/-- What is kept in permanent key storage: one keyshare for each domain, in the order of the
keyset. -/
structure PermanentKeyshareData where
  epochId : EpochId
  keyshares : List Keyshare
deriving DecidableEq, Repr

structure LegacyRootKeyshareData where
  epoch : ℕ
  privateShare : ℕ
  publicKey : Secp256k1Point
deriving DecidableEq, Repr

namespace PermanentKeyshareData

/-- The first domain at its first attempt. -/
def fromLegacy (legacy : LegacyRootKeyshareData) : PermanentKeyshareData where
  epochId := legacy.epoch
  keyshares :=
    [{ keyId := { epochId := legacy.epoch, domainId := 0, attemptId := 0 }
       data := .secp256k1
        { privateShare := legacy.privateShare, publicKey := legacy.publicKey } }]

variable (data : PermanentKeyshareData)

/-- The keyshares are in increasing order of their domains. -/
def Ordered : Prop :=
  data.keyshares.IsChain fun first second ↦
    first.keyId.epochId = second.keyId.epochId ∧ first.keyId.domainId < second.keyId.domainId

def new (epochId : EpochId) (keyshares : List Keyshare) : KeyshareResult PermanentKeyshareData := do
  require (∀ window ∈ keyshares.zip keyshares.tail,
      window.1.keyId.epochId = window.2.keyId.epochId ∧
        window.1.keyId.domainId < window.2.keyId.domainId)
    (.inconsistentKeyIds (keyshares.map fun keyshare ↦ keyshare.keyId))
  match keyshares with
  | [] => .err .noKeyshares
  | first :: _ => do
      require (first.keyId.epochId = epochId)
        (.inconsistentEpochId first.keyId.epochId epochId)
      return { epochId, keyshares }

theorem isChain_of_forall_mem_zip {Item : Type} {related : Item → Item → Prop}
    {items : List Item} (hwindows : ∀ window ∈ items.zip items.tail, related window.1 window.2) :
    items.IsChain related := by
  induction items with
  | nil => exact List.IsChain.nil
  | cons _ rest ih =>
    cases rest with
    | nil => exact List.IsChain.singleton _
    | cons =>
      simp only [List.tail_cons, List.zip_cons_cons, List.mem_cons, forall_eq_or_imp] at hwindows
      exact List.IsChain.cons_cons hwindows.1 (ih hwindows.2)

theorem new_eq_ok {keyshares : List Keyshare} {data : PermanentKeyshareData}
    (hok : new epochId keyshares = .ok data) : data = ⟨epochId, keyshares⟩ ∧ data.Ordered := by
  simp only [new, bind_eq_ok, require_eq_ok, exists_const] at hok
  obtain ⟨hwindows, hok⟩ := hok
  cases keyshares with
  | nil => cases hok
  | cons =>
    simp only [bind_eq_ok, require_eq_ok, exists_const, pure_eq, ok.injEq] at hok
    obtain ⟨-, rfl⟩ := hok
    exact ⟨rfl, isChain_of_forall_mem_zip hwindows⟩

/-- The loop of `store` over the stored keyshares and those that take their place. -/
def checkKeyshares (isSameEpochId : Bool) : List (Keyshare × Keyshare) → KeyshareResult Unit
  | [] => .ok ()
  | (existing, new) :: rest => do
      require (existing.keyId.domainId = new.keyId.domainId)
        (.differentDomainId existing.keyId new.keyId)
      require (¬ (isSameEpochId = true ∧ existing.keyId ≠ new.keyId))
        (.differentKeyId existing.keyId new.keyId)
      let existingPublicKey ← existing.publicKey
      let newPublicKey ← new.publicKey
      require (existingPublicKey = newPublicKey) (.differentPublicKey existing.keyId new.keyId)
      checkKeyshares isSameEpochId rest

/-- The checks of `store` against the data that is stored. -/
def checkOverwrite (existing new : PermanentKeyshareData) : KeyshareResult Unit := do
  require (¬ new.epochId < existing.epochId) (.olderEpoch existing.epochId new.epochId)
  require (¬ new.keyshares.length < existing.keyshares.length)
    (.fewerDomains existing.keyshares.length new.keyshares.length)
  require (¬ (existing.epochId = new.epochId ∧
      new.keyshares.length ≤ existing.keyshares.length)) (.equalNumberOfDomains existing.epochId)
  checkKeyshares (existing.epochId = new.epochId) (existing.keyshares.zip new.keyshares)

/-! ### Data that extends stored data -/

/-- A keyshare that may take the place of another. -/
structure Replaces (isSameEpochId : Prop) (existing new : Keyshare) : Prop where
  domainId : new.keyId.domainId = existing.keyId.domainId
  publicKey : new.publicKey = existing.publicKey
  keyId : isSameEpochId → new.keyId = existing.keyId

/-- Later data: no older epoch, no domain is missing, and the keyshare of a domain has the same
public key and, within one epoch, the same key id. -/
structure Extends (before after : PermanentKeyshareData) : Prop where
  epochId : before.epochId ≤ after.epochId
  keyshares : ∀ (index : ℕ) existing, before.keyshares[index]? = some existing →
    ∃ new, after.keyshares[index]? = some new ∧
      Replaces (before.epochId = after.epochId) existing new
  ordered : before.Ordered → after.Ordered

theorem Extends.refl : Extends data data where
  epochId := le_refl _
  keyshares := fun _ existing hexisting ↦ ⟨existing, hexisting, ⟨rfl, rfl, fun _ ↦ rfl⟩⟩
  ordered := id

theorem Extends.trans {first middle last} (hfirst : Extends first middle)
    (hlast : Extends middle last) : Extends first last where
  epochId := hfirst.epochId.trans hlast.epochId
  keyshares := by
    intro index existing hexisting
    obtain ⟨between, hbetween, hreplaces⟩ := hfirst.keyshares index existing hexisting
    obtain ⟨new, hnew, hreplacesLast⟩ := hlast.keyshares index between hbetween
    refine ⟨new, hnew, hreplacesLast.domainId.trans hreplaces.domainId,
      hreplacesLast.publicKey.trans hreplaces.publicKey, fun hsame ↦ ?_⟩
    -- with equal epochs at the ends, the one in the middle is the same too
    have hmiddle : first.epochId = middle.epochId :=
      le_antisymm hfirst.epochId (hsame ▸ hlast.epochId)
    exact (hreplacesLast.keyId (hmiddle.symm.trans hsame)).trans (hreplaces.keyId hmiddle)
  ordered := fun hordered ↦ hlast.ordered (hfirst.ordered hordered)

/-- In increasing order, a domain has one keyshare. -/
theorem Ordered.index_unique {data : PermanentKeyshareData} (hordered : data.Ordered)
    {first second : ℕ} {left right : Keyshare} (hfirst : data.keyshares[first]? = some left)
    (hsecond : data.keyshares[second]? = some right)
    (hdomain : left.keyId.domainId = right.keyId.domainId) : first = second := by
  have hdomains : data.keyshares.Pairwise fun left right ↦
      left.keyId.domainId < right.keyId.domainId :=
    (hordered.imp fun _ _ hwindow ↦ hwindow.2).pairwise
  rw [List.pairwise_iff_getElem] at hdomains
  obtain ⟨hfirstLt, rfl⟩ := List.getElem?_eq_some_iff.mp hfirst
  obtain ⟨hsecondLt, rfl⟩ := List.getElem?_eq_some_iff.mp hsecond
  by_contra hne
  rcases Nat.lt_or_gt_of_ne hne with hlt | hgt
  · exact absurd hdomain (hdomains first second hfirstLt hsecondLt hlt).ne
  · exact absurd hdomain (hdomains second first hsecondLt hfirstLt hgt).ne'

/-- The keyshare of a domain that is stored already. -/
theorem Extends.replaces {before after : PermanentKeyshareData} (hextends : Extends before after)
    (hordered : before.Ordered) {existing new : Keyshare} (hexisting : existing ∈ before.keyshares)
    (hnew : new ∈ after.keyshares) (hdomain : new.keyId.domainId = existing.keyId.domainId) :
    Replaces (before.epochId = after.epochId) existing new := by
  obtain ⟨index, hindex⟩ := List.mem_iff_getElem?.mp hexisting
  obtain ⟨other, hother⟩ := List.mem_iff_getElem?.mp hnew
  obtain ⟨replacement, hreplacement, hreplaces⟩ := hextends.keyshares index existing hindex
  obtain rfl : index = other := (hextends.ordered hordered).index_unique hreplacement hother
    (hreplaces.domainId.trans hdomain.symm)
  obtain rfl : replacement = new := Option.some_inj.mp (hreplacement.symm.trans hother)
  exact hreplaces

theorem replaces_of_checkKeyshares {isSameEpochId existing new}
    (hok : checkKeyshares isSameEpochId (existing.zip new) = .ok ())
    (hlength : existing.length ≤ new.length) :
    List.Forall₂ (Replaces (isSameEpochId = true)) existing (new.take existing.length) := by
  induction existing generalizing new with
  | nil =>
    rw [List.length_nil, List.take_zero]
    exact List.Forall₂.nil
  | cons _ _ ih =>
    cases new with
    | nil => simp at hlength
    | cons =>
      simp only [List.zip_cons_cons, checkKeyshares, bind_eq_ok, require_eq_ok, exists_const] at hok
      obtain ⟨hdomain, hkeyId, _, hexisting, _, hnew, rfl, hrest⟩ := hok
      rw [List.length_cons, List.take_succ_cons]
      refine List.Forall₂.cons ⟨hdomain.symm, hnew.trans hexisting.symm, fun hsame ↦ ?_⟩
        (ih hrest (by simpa using hlength))
      by_contra hne
      exact hkeyId ⟨hsame, fun heq ↦ hne heq.symm⟩

/-- What passes the checks extends what is stored. -/
theorem extends_of_checkOverwrite {existing new} (hok : checkOverwrite existing new = .ok ())
    (hordered : new.Ordered) : Extends existing new := by
  simp only [checkOverwrite, bind_eq_ok, require_eq_ok, exists_const, not_lt] at hok
  obtain ⟨hepoch, hlength, -, hkeyshares⟩ := hok
  have hreplaces := replaces_of_checkKeyshares hkeyshares hlength
  refine ⟨hepoch, fun index stored hstored ↦ ?_, fun _ ↦ hordered⟩
  obtain ⟨hindex, hget⟩ := List.getElem?_eq_some_iff.mp hstored
  have hnewIndex : index < new.keyshares.length := hindex.trans_le hlength
  refine ⟨new.keyshares[index], List.getElem?_eq_getElem hnewIndex, ?_⟩
  have hat := List.Forall₂.get hreplaces hindex (by simpa using ⟨hindex, hnewIndex⟩)
  simp only [List.get_eq_getElem, List.getElem_take, decide_eq_true_eq, hget] at hat
  exact hat

end PermanentKeyshareData

end NearMpc.Node
