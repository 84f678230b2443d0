import NearMpc.Node.KeyshareStorage

/-!
# The keyshares of a keyset

Whatever is in the two stores, the keyshares that `get_keyshares` and `update_permanent_keyshares`
return for a keyset should be the ones it lists: one for each domain, in the order of the keyset,
with the key id and the public key listed for the domain.

Key ids, order and number are right in all cases. The public key is compared for the keyshares that
are in permanent storage, not for those taken from temporary storage, although
`load_keyshare_from_temporary` exists for that. So the result is right exactly when the keyshares in
temporary storage under the missing key ids have the listed public keys (`TemporaryKeysMatch`).
-/

set_option autoImplicit false

namespace NearMpc.Node

open Library Library.Outcome PermanentKeyStorage TemporaryKeyStorage
open NearMpc.Contract (EpochId KeyEventId KeyForDomain Keyset)

namespace KeyshareStorage

variable {Contents Plaintext Nonce : Type} {codec : KeyshareCodec Contents Plaintext Nonce}
  {keyset : Keyset} {home after : HomeDirectory Contents} {keyshares : List Keyshare}

/-- The keyshare is in temporary storage under the key id of the key. -/
def IsTemporary (codec : KeyshareCodec Contents Plaintext Nonce) (epochId : EpochId)
    (home : HomeDirectory Contents) (keyshare : Keyshare) (key : KeyForDomain) : Prop :=
  loadKeyshare codec (keyEventIdOf epochId key) home = .ok (some keyshare)

variable {epochId : EpochId} {keys : List KeyForDomain}

theorem loadAllFromTemporary_eq_ok
    (hok : loadAllFromTemporary codec epochId home keys = .ok keyshares) :
    List.Forall₂ (IsTemporary codec epochId home) keyshares keys := by
  induction keys generalizing keyshares with
  | nil =>
    cases hok
    exact List.Forall₂.nil
  | cons _ _ ih =>
    simp only [loadAllFromTemporary, bind_eq_ok, okOr_eq_ok, pure_eq, ok.injEq] at hok
    obtain ⟨_, hloaded, _, rfl, _, hothers, rfl⟩ := hok
    exact List.Forall₂.cons hloaded (ih hothers)

/-- The number of keyshares of the keyset that permanent storage has. -/
def permanentCount (codec : KeyshareCodec Contents Plaintext Nonce) (keyset : Keyset)
    (home : HomeDirectory Contents) : ℕ :=
  (permanentKeysharesOf keyset.epochId (held codec home)).length

theorem loadPrefixFromPermanent_eq_ok
    (hok : loadPrefixFromPermanent codec keyset home = .ok keyshares) :
    keyshares.length = permanentCount codec keyset home ∧
      keyshares.length ≤ keyset.domains.length ∧
      MatchesKeys keyset.epochId keyshares (keyset.domains.take keyshares.length) := by
  simp only [loadPrefixFromPermanent, bind_eq_ok, pure_eq, ok.injEq] at hok
  obtain ⟨_, hload, ⟨⟩, hverify, rfl⟩ := hok
  refine ⟨?_, matchesKeys_of_verify hverify⟩
  rw [permanentCount, load_eq_ok codec hload]

variable {loaded : LoadedKeyset}

/-- Where the keyshares of a keyset come from. -/
theorem loadKeyshares_eq_ok
    (hok : loadKeysharesFromPermanentOrTemporary codec keyset home = .ok loaded) :
    ∃ existing temporary, loaded.keyshares = existing ++ temporary ∧
      existing.length = permanentCount codec keyset home ∧
      MatchesKeys keyset.epochId existing
        (keyset.domains.take (permanentCount codec keyset home)) ∧
      List.Forall₂ (IsTemporary codec keyset.epochId home) temporary
        (keyset.domains.drop (permanentCount codec keyset home)) := by
  simp only [loadKeysharesFromPermanentOrTemporary, bind_eq_ok] at hok
  obtain ⟨existing, hprefix, hok⟩ := hok
  obtain ⟨hcount, _, hmatches⟩ := loadPrefixFromPermanent_eq_ok hprefix
  rw [← hcount]
  split_ifs at hok with hall
  · cases hok
    refine ⟨existing, [], (List.append_nil _).symm, rfl, hmatches, ?_⟩
    rw [List.drop_eq_nil_of_le hall.ge]
    exact List.Forall₂.nil
  · simp only [bind_eq_ok, pure_eq, ok.injEq] at hok
    obtain ⟨temporary, htemporary, rfl⟩ := hok
    exact ⟨existing, temporary, rfl, rfl, hmatches, loadAllFromTemporary_eq_ok htemporary⟩

/-- The keyshares in temporary storage under the key ids that permanent storage does not have are
for the public keys of the keyset. -/
def TemporaryKeysMatch (codec : KeyshareCodec Contents Plaintext Nonce) (keyset : Keyset)
    (home : HomeDirectory Contents) : Prop :=
  ∀ key ∈ keyset.domains.drop (permanentCount codec keyset home), ∀ keyshare,
    IsTemporary codec keyset.epochId home keyshare key → keyshare.publicKey = .ok key.key

/-- With their key ids checked, temporary keyshares match their keys if the public keys do. -/
theorem matchesKeys_iff_of_isTemporary
    (htemporary : List.Forall₂ (IsTemporary codec epochId home) keyshares keys) :
    MatchesKeys epochId keyshares keys ↔
      ∀ key ∈ keys, ∀ keyshare, IsTemporary codec epochId home keyshare key →
        keyshare.publicKey = .ok key.key := by
  induction htemporary with
  | nil => simp [MatchesKeys]
  | @cons keyshare key _ _ hfirst _ ih =>
    have hid : keyshare.keyId = keyEventIdOf epochId key :=
      loadKeyshare_keyId codec hfirst
    have honly : ∀ other, IsTemporary codec epochId home other key ↔ keyshare = other := by
      intro _
      rw [IsTemporary, hfirst, ok.injEq, Option.some.injEq]
    rw [MatchesKeys, List.forall₂_cons, ← MatchesKeys, ih, List.forall_mem_cons]
    simp only [honly, forall_eq', hid, true_and]

theorem matchesKeys_iff_of_loadKeyshares
    (hok : loadKeysharesFromPermanentOrTemporary codec keyset home = .ok loaded) :
    MatchesKeys keyset.epochId loaded.keyshares keyset.domains ↔
      TemporaryKeysMatch codec keyset home := by
  obtain ⟨_, _, hloaded, hlength, hexisting, htemporary⟩ := loadKeyshares_eq_ok hok
  rw [TemporaryKeysMatch, ← matchesKeys_iff_of_isTemporary htemporary, hloaded]
  constructor
  · intro hmatches
    have hdrop := List.forall₂_drop (permanentCount codec keyset home) hmatches
    rw [List.drop_append_of_le_length hlength.ge, ← hlength, List.drop_length,
      List.nil_append] at hdrop
    rw [← hlength]
    exact hdrop
  · intro hmatches
    have happend := List.rel_append hexisting hmatches
    dsimp only at happend
    rwa [List.take_append_drop] at happend

/-- What an update returns is what reading returned, and what it has stored. -/
theorem updatePermanentKeyshares_eq_ok {nonce}
    (hok : updatePermanentKeyshares codec nonce keyset home = (after, .ok keyshares)) :
    getKeyshares codec keyset home = .ok keyshares ∧
      (held codec after = held codec home ∨
        held codec after = some ⟨keyset.epochId, keyshares⟩) := by
  unfold updatePermanentKeyshares at hok
  rw [Effect.read_bind_eq_ok] at hok
  obtain ⟨loaded, hload, hok⟩ := hok
  cases loaded with
  | permanent =>
    obtain ⟨rfl, hreturned⟩ := Prod.mk.inj hok
    cases hreturned
    refine ⟨?_, .inl rfl⟩
    simp only [getKeyshares, hload, ok_bind]
    rfl
  | permanentAndTemporary =>
    simp only [Effect.bind_eq_ok] at hok
    obtain ⟨middle, ⟨⟩, hstore, hreturn⟩ := hok
    obtain ⟨rfl, hreturned⟩ := Prod.mk.inj hreturn
    cases hreturned
    refine ⟨?_, .inr ?_⟩
    · simp only [getKeyshares, hload, ok_bind]
      rfl
    · unfold storeNewPermanentKeysetDataDeleteTemporary at hstore
      rw [Effect.lift_bind_eq_ok] at hstore
      obtain ⟨_, hnew, hstore⟩ := hstore
      obtain ⟨rfl, -⟩ := PermanentKeyshareData.new_eq_ok hnew
      rw [Effect.bind_eq_ok] at hstore
      obtain ⟨stored, ⟨⟩, hstored, hdelete⟩ := hstore
      have hprior := deleteEntries_within keyset.epochId
        stored.temporaryKeys.keys stored
      have hafter : (deleteEntries keyset.epochId
          stored.temporaryKeys.keys stored).1 = middle := congrArg Prod.fst hdelete
      rw [hafter] at hprior
      rw [held, hprior.key]
      exact store_eq_ok codec hstored

/-- The keyshares that are returned for a keyset, and those that are stored for it, are the ones it
lists exactly when the keyshares taken from temporary storage are for its public keys. -/
theorem keyshares_match_keyset_iff (hget : getKeyshares codec keyset home = .ok keyshares) :
    (MatchesKeys keyset.epochId keyshares keyset.domains ∧
        ∀ nonce after returned,
          updatePermanentKeyshares codec nonce keyset home = (after, .ok returned) →
            MatchesKeys keyset.epochId returned keyset.domains ∧
              ∀ stored, held codec after = some stored →
                held codec home = some stored ∨
                  MatchesKeys keyset.epochId stored.keyshares keyset.domains) ↔
      TemporaryKeysMatch codec keyset home := by
  simp only [getKeyshares, bind_eq_ok, pure_eq, ok.injEq] at hget
  obtain ⟨_, hload, rfl⟩ := hget
  rw [← matchesKeys_iff_of_loadKeyshares hload]
  refine ⟨fun hmatches ↦ hmatches.1, fun hmatches ↦ ⟨hmatches, ?_⟩⟩
  intro nonce after returned hupdate
  obtain ⟨hget, hheld⟩ := updatePermanentKeyshares_eq_ok hupdate
  simp only [getKeyshares, hload, ok_bind, pure_eq, ok.injEq] at hget
  refine ⟨hget ▸ hmatches, fun stored hstored ↦ ?_⟩
  rcases hheld with hsame | hnew
  · exact .inl (hsame.symm.trans hstored)
  · refine .inr ?_
    rw [hnew, Option.some_inj] at hstored
    rw [← hstored, ← hget]
    exact hmatches

namespace OneDomain

/-- A keyshare of the first domain in the first epoch. -/
def keyshareWith (publicKey : String) : Keyshare where
  keyId := { epochId := 0, domainId := 0, attemptId := 0 }
  data := .ed25519 { privateShare := 1, publicKey }

def agreedKeyset : Keyset where
  epochId := 0
  domains := [{ domainId := 0, key := .ed25519 "agreed", attempt := 0 }]

/-- A node that has generated the keyshare and committed it. -/
def homeWith (publicKey : String) : HomeDirectory PlainFile where
  temporaryKeys := (∅ : Std.TreeMap String PlainFile).insert
    (keysharePath (keyshareWith publicKey).keyId)
    (.keyshare (keyshareWith publicKey))

end OneDomain

open OneDomain in
theorem keyshare_of_agreed_key_is_used :
    getKeyshares plainCodec agreedKeyset (homeWith "agreed") = .ok [keyshareWith "agreed"] ∧
      MatchesKeys 0 [keyshareWith "agreed"] agreedKeyset.domains := by
  have hget : getKeyshares plainCodec agreedKeyset (homeWith "agreed") =
      .ok [keyshareWith "agreed"] := by decide +kernel
  refine ⟨hget, ((keyshares_match_keyset_iff hget).mpr ?_).1⟩
  intro key hkey keyshare htemporary
  have hloaded : loadKeyshare plainCodec
      { epochId := 0, domainId := 0, attemptId := 0 } (homeWith "agreed") =
        .ok (some (keyshareWith "agreed")) := by decide +kernel
  obtain rfl : key = { domainId := 0, key := .ed25519 "agreed", attempt := 0 } :=
    List.mem_singleton.mp hkey
  obtain rfl : keyshareWith "agreed" = keyshare :=
    Option.some_inj.mp (ok.inj (hloaded.symm.trans htemporary))
  rfl

open OneDomain in
/-- A keyshare of another public key is moved to permanent storage and used. -/
theorem keyshare_of_other_key_is_used :
    getKeyshares plainCodec agreedKeyset (homeWith "other") = .ok [keyshareWith "other"] ∧
      (updatePermanentKeyshares plainCodec () agreedKeyset (homeWith "other")).2 =
        .ok [keyshareWith "other"] ∧
      held plainCodec
          (updatePermanentKeyshares plainCodec () agreedKeyset (homeWith "other")).1 =
        some ⟨0, [keyshareWith "other"]⟩ ∧
      ¬ MatchesKeys 0 [keyshareWith "other"] agreedKeyset.domains := by
  refine ⟨by decide +kernel, by decide +kernel, by decide +kernel, ?_⟩
  intro hmatches
  rw [MatchesKeys, agreedKeyset, List.forall₂_cons] at hmatches
  exact absurd hmatches.1.2 (by decide)

end KeyshareStorage

end NearMpc.Node
