import NearMpc.Node.KeyshareFiles

/-!
# Keyshare storage

The operations of the keyshare storage over the files of the home directory: before a keyshare is
generated or reshared its key id is reserved, the finished keyshare is committed to temporary
storage, and once the contract says which attempts count, the keyshares of a keyset are moved to
permanent storage. Keyshares can also come from a backup. Follows `keyshare.rs`.

The keyshares of a keyset are put together from both stores. Those in permanent storage are compared
with the keyset. For those in temporary storage `start_generating_key` and `start_resharing_key` do
so as well (`loadKeyshareFromTemporary`), while `_load_keyshares_from_permanent_or_temporary`, which
`update_permanent_keyshares` and `get_keyshares` use, only looks at their key ids.
-/

set_option autoImplicit false

namespace NearMpc.Node

open Library Library.Outcome
open NearMpc.Contract (EpochId KeyEventId KeyForDomain Keyset)
open TemporaryKeyStorage (PendingKeyshareStorageHandle)

namespace KeyshareStorage

variable {Contents Plaintext Nonce : Type} (codec : KeyshareCodec Contents Plaintext Nonce)

/-! ### Starting a keyshare -/

def loadKeyshareFromTemporary (epochId : EpochId) (key : KeyForDomain)
    (home : HomeDirectory Contents) : KeyshareResult Keyshare := do
  let loaded ← TemporaryKeyStorage.loadKeyshare codec (keyEventIdOf epochId key) home
  let keyshare ← okOr loaded (.missingTemporaryKeyshare (keyEventIdOf epochId key))
  keyshare.checkConsistency epochId key
  return keyshare

/-- The keyshares of the keys are in temporary storage. -/
def checkTemporary (epochId : EpochId) (home : HomeDirectory Contents) :
    List KeyForDomain → KeyshareResult Unit
  | [] => .ok ()
  | key :: rest => do
      let _ ← loadKeyshareFromTemporary codec epochId key home
      checkTemporary epochId home rest

variable (alreadyGeneratedKeys : List KeyForDomain) (epochId : EpochId)

/-- The number of keys of the epoch that are in permanent storage. -/
def numPermanentKeysSameEpoch (permanent : Option PermanentKeyshareData) : KeyshareResult ℕ :=
  match permanent with
  | none => .ok 0
  | some permanent =>
      if permanent.epochId = epochId then do
        verifyExistingKeysharesArePrefixOfKeyset permanent.keyshares epochId alreadyGeneratedKeys
        return permanent.keyshares.length
      else if epochId < permanent.epochId then .err (.storageIsNewer permanent.epochId epochId)
      else .ok 0

/-- The checks of `start_generating_key`. -/
def ensureCanGenerateKey (home : HomeDirectory Contents) : KeyshareResult Unit := do
  let permanent ← PermanentKeyStorage.load codec home
  let count ← numPermanentKeysSameEpoch alreadyGeneratedKeys epochId permanent
  -- the slice `already_generated_keys[count..]`
  guardPanic (count ≤ alreadyGeneratedKeys.length)
  checkTemporary codec epochId home (alreadyGeneratedKeys.drop count)

def startGeneratingKey (keyIdToGenerate : KeyEventId) :
    FileEffect Contents PendingKeyshareStorageHandle := do
  Effect.read (ensureCanGenerateKey codec alreadyGeneratedKeys keyIdToGenerate.epochId)
  TemporaryKeyStorage.startGeneratingKeyshare codec keyIdToGenerate

variable (alreadyResharedKeys : List KeyForDomain)

/-- The checks of `start_resharing_key`. -/
def ensureCanReshareKey (epochId : EpochId) (home : HomeDirectory Contents) :
    KeyshareResult Unit := do
  match ← PermanentKeyStorage.load codec home with
  | some permanent =>
      require (permanent.epochId < epochId) (.storageIsNotOlder permanent.epochId epochId)
  | none => pure ()
  checkTemporary codec epochId home alreadyResharedKeys

def startResharingKey (keyIdToGenerate : KeyEventId) :
    FileEffect Contents PendingKeyshareStorageHandle := do
  Effect.read (ensureCanReshareKey codec alreadyResharedKeys keyIdToGenerate.epochId)
  TemporaryKeyStorage.startGeneratingKeyshare codec keyIdToGenerate

/-! ### Using the keyshares of a keyset -/

/-- The permanent keyshares of the epoch. -/
def permanentKeysharesOf : Option PermanentKeyshareData → List Keyshare
  | some permanent => if permanent.epochId = epochId then permanent.keyshares else []
  | none => []

variable (keyset : Keyset) (home : HomeDirectory Contents)

def loadPrefixFromPermanent : KeyshareResult (List Keyshare) := do
  let permanent ← PermanentKeyStorage.load codec home
  let existingKeyshares := permanentKeysharesOf keyset.epochId permanent
  verifyExistingKeysharesArePrefixOfKeyset existingKeyshares keyset.epochId keyset.domains
  return existingKeyshares

inductive LoadedKeyset where
  | permanent (keyshares : List Keyshare)
  | permanentAndTemporary (keyshares : List Keyshare)
deriving DecidableEq, Repr

def LoadedKeyset.keyshares : LoadedKeyset → List Keyshare
  | .permanent keyshares => keyshares
  | .permanentAndTemporary keyshares => keyshares

/-- The keyshares in temporary storage under the key ids of the keys. -/
def loadAllFromTemporary (epochId : EpochId) (home : HomeDirectory Contents) :
    List KeyForDomain → KeyshareResult (List Keyshare)
  | [] => .ok []
  | key :: rest => do
      let loaded ← TemporaryKeyStorage.loadKeyshare codec (keyEventIdOf epochId key) home
      let keyshare ← okOr loaded (.missingTemporaryKeyshare (keyEventIdOf epochId key))
      let keyshares ← loadAllFromTemporary epochId home rest
      return keyshare :: keyshares

def loadKeysharesFromPermanentOrTemporary : KeyshareResult LoadedKeyset := do
  let existingKeyshares ← loadPrefixFromPermanent codec keyset home
  if existingKeyshares.length = keyset.domains.length then
    return .permanent existingKeyshares
  let newKeyshares ← loadAllFromTemporary codec keyset.epochId home
    (keyset.domains.drop existingKeyshares.length)
  return .permanentAndTemporary (existingKeyshares ++ newKeyshares)

variable (nonce : Nonce)

def storeNewPermanentKeysetDataDeleteTemporary (epochId : EpochId) (keyshares : List Keyshare) :
    FileEffect Contents Unit := do
  let newPermanentKeyshare ← Effect.lift (PermanentKeyshareData.new epochId keyshares)
  PermanentKeyStorage.store codec nonce newPermanentKeyshare
  TemporaryKeyStorage.deleteKeysharesPriorToEpochId epochId

def updatePermanentKeyshares (keyset : Keyset) : FileEffect Contents (List Keyshare) := do
  match ← Effect.read (loadKeysharesFromPermanentOrTemporary codec keyset) with
  | .permanent keyshares => return keyshares
  | .permanentAndTemporary keyshares => do
      storeNewPermanentKeysetDataDeleteTemporary codec nonce keyset.epochId keyshares
      return keyshares

def getKeyshares : KeyshareResult (List Keyshare) := do
  let loaded ← loadKeysharesFromPermanentOrTemporary codec keyset home
  return loaded.keyshares

/-! ### Importing a backup -/

/-- For each key the keyshare in temporary storage or, if there is none, that of the backup. -/
def loadAllFromTemporaryOrBackup (epochId : EpochId) (backup : List Keyshare)
    (home : HomeDirectory Contents) : List KeyForDomain → KeyshareResult (List Keyshare)
  | [] => .ok []
  | key :: rest => do
      let keyId := keyEventIdOf epochId key
      let loaded ← TemporaryKeyStorage.loadKeyshare codec keyId home
      let keyshare ← okOr (loaded <|> backup.find? fun share ↦ share.keyId = keyId)
        (.missingKeyshare keyId)
      let keyshares ← loadAllFromTemporaryOrBackup epochId backup home rest
      return keyshare :: keyshares

variable (backup : List Keyshare) (contractKeyset : Keyset)

/-- The keyshares that the import of a backup stores. -/
def loadForImport (home : HomeDirectory Contents) : KeyshareResult (List Keyshare) := do
  verifyExistingKeysharesArePrefixOfKeyset backup contractKeyset.epochId contractKeyset.domains
  require (backup.length = contractKeyset.domains.length) .backupIsNoExactMatch
  let existingKeyshares ← loadPrefixFromPermanent codec contractKeyset home
  let missing ← loadAllFromTemporaryOrBackup codec contractKeyset.epochId backup home
    (contractKeyset.domains.drop existingKeyshares.length)
  let newKeyshares := existingKeyshares ++ missing
  require (∀ pair ∈ newKeyshares.zip backup, pair.1 = pair.2)
    (.mismatchWithBackup (((newKeyshares.zip backup).filter fun pair ↦ pair.1 ≠ pair.2).map
      fun pair ↦ pair.1.keyId))
  return newKeyshares

def importBackup : FileEffect Contents Unit := do
  let newKeyshares ← Effect.read (loadForImport codec backup contractKeyset)
  storeNewPermanentKeysetDataDeleteTemporary codec nonce contractKeyset.epochId newKeyshares

end KeyshareStorage

end NearMpc.Node
