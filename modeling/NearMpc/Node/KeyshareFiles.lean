import NearMpc.Library.Effect
import NearMpc.Node.Keyshares

/-!
# Files of the keyshare storage

The home directory of a node holds its keyshares in files. Permanent keyshares are in a file of
their own for each epoch and number of domains under `permanent_keys`, and the file `key` is a hard
link to the current one. Each keyshare that has been generated or reshared is in a file under
`temporary_keys`, next to a file that marks that its computation has been started. Follows
`keyshare/local.rs`, `keyshare/permanent.rs` and `keyshare/temporary.rs`.

A store of permanent data is a list of file operations (`storeOperations`), so that it can be
interrupted between any two of them. The names of temporary files are texts, from which the epoch is
read back when old files are deleted (`getEpochIdFromFilename_filename`).
-/

set_option autoImplicit false

namespace NearMpc.Node

open Library Library.Outcome
open NearMpc.Contract (EpochId KeyEventId)
open Std (TreeMap)

/-- Encryption of file contents and the serialized form of what is stored in them. -/
structure KeyshareCodec (Contents Plaintext Nonce : Type) where
  emptyFile : Contents
  encrypt : Nonce → Plaintext → Contents
  decrypt : Contents → Option Plaintext
  serializePermanent : PermanentKeyshareData → Plaintext
  deserializePermanent : Plaintext → Option PermanentKeyshareData
  deserializeLegacy : Plaintext → Option LegacyRootKeyshareData
  serializeKeyshare : Keyshare → Plaintext
  deserializeKeyshare : Plaintext → Option Keyshare
  decrypt_encrypt : ∀ nonce plaintext, decrypt (encrypt nonce plaintext) = some plaintext
  deserializePermanent_serializePermanent : ∀ data,
    deserializePermanent (serializePermanent data) = some data
  deserializeKeyshare_serializeKeyshare : ∀ keyshare,
    deserializeKeyshare (serializeKeyshare keyshare) = some keyshare

structure HomeDirectory (Contents : Type) where
  key : Option Contents := none
  permanentKeys : TreeMap String Contents := ∅
  temporaryKeys : TreeMap String Contents := ∅

abbrev FileEffect (Contents : Type) := Effect (HomeDirectory Contents) KeyshareError

variable {Contents Plaintext Nonce : Type} (codec : KeyshareCodec Contents Plaintext Nonce)

/-! ### The local backend of permanent storage -/

/-- A file operation of the backend. -/
inductive FileOperation (Contents : Type) where
  | createNew (identifier : String)
  | writeAll (identifier : String) (contents : Contents)
  | syncAll (identifier : String)
  | removeKeyfile
  | linkKeyfile (identifier : String)

variable {contents : Contents}

namespace FileOperation

/-- Whether the key file could be removed is ignored, as in the source. -/
def perform : FileOperation Contents → FileEffect Contents Unit
  | .createNew identifier => fun home ↦
      if home.permanentKeys.contains identifier then (home, .err .fileExists)
      else ({ home with
        permanentKeys := home.permanentKeys.insert identifier codec.emptyFile }, .ok ())
  | .writeAll identifier contents =>
      .modify fun home ↦
        { home with permanentKeys := home.permanentKeys.insert identifier contents }
  | .syncAll _ => pure ()
  | .removeKeyfile => .modify fun home ↦ { home with key := none }
  | .linkKeyfile identifier => fun home ↦
      match home.key, home.permanentKeys[identifier]? with
      | some _, _ => (home, .err .fileExists)
      | none, none => (home, .err .fileNotFound)
      | none, some contents => ({ home with key := some contents }, .ok ())

def performAll : List (FileOperation Contents) → FileEffect Contents Unit
  | [] => pure ()
  | operation :: rest => do
      operation.perform codec
      performAll rest

variable {codec} {home : HomeDirectory Contents} {operation : FileOperation Contents}
  {rest : List (FileOperation Contents)} {after : HomeDirectory Contents}

theorem performAll_cons_of_ok (hok : operation.perform codec home = (after, .ok ())) :
    performAll codec (operation :: rest) home = performAll codec rest after :=
  Effect.bind_of_ok hok

theorem performAll_cons_of_err {failure}
    (herr : operation.perform codec home = (after, .err failure)) :
    performAll codec (operation :: rest) home = (after, .err failure) :=
  Effect.bind_of_err herr

variable {identifier : String}

theorem perform_createNew_new (hnew : home.permanentKeys[identifier]? = none) :
    (createNew identifier).perform codec home =
      ({ home with permanentKeys := home.permanentKeys.insert identifier codec.emptyFile },
        .ok ()) := by
  have habsent : ¬ home.permanentKeys.contains identifier = true := by
    rw [← TreeMap.isSome_getElem?_eq_contains, hnew]
    exact Bool.false_ne_true
  exact if_neg habsent

theorem perform_createNew_existing (hexists : home.permanentKeys[identifier]? = some contents) :
    (createNew identifier).perform codec home = (home, .err .fileExists) := by
  have hpresent : home.permanentKeys.contains identifier = true := by
    rw [← TreeMap.isSome_getElem?_eq_contains, hexists]
    rfl
  exact if_pos hpresent

theorem perform_linkKeyfile (hkey : home.key = none)
    (hfile : home.permanentKeys[identifier]? = some contents) :
    (linkKeyfile identifier).perform codec home = ({ home with key := some contents }, .ok ()) := by
  simp only [perform, hkey, hfile]

end FileOperation

namespace LocalPermanentKeyStorageBackend

def load (home : HomeDirectory Contents) : KeyshareResult (Option Plaintext) :=
  match home.key with
  | none => .ok none
  | some contents => do
      let decrypted ← okOr (codec.decrypt contents) .decryptionFailed
      return some decrypted

/-- The new data goes to a file of its own, which then becomes the key file. -/
def storeOperations (encrypted : Contents) (identifier : String) :
    List (FileOperation Contents) :=
  [.createNew identifier, .writeAll identifier encrypted, .syncAll identifier, .removeKeyfile,
    .linkKeyfile identifier]

def store (nonce : Nonce) (data : Plaintext) (identifier : String) : FileEffect Contents Unit :=
  FileOperation.performAll codec (storeOperations (codec.encrypt nonce data) identifier)

variable {nonce : Nonce} {data : Plaintext} {identifier : String} {home : HomeDirectory Contents}

/-- A store for which there is no file yet succeeds. -/
theorem store_new (hnew : home.permanentKeys[identifier]? = none) :
    store codec nonce data identifier home =
      ({ home with
        key := some (codec.encrypt nonce data)
        permanentKeys := (home.permanentKeys.insert identifier codec.emptyFile).insert identifier
          (codec.encrypt nonce data) }, .ok ()) := by
  unfold store storeOperations
  rw [FileOperation.performAll_cons_of_ok (FileOperation.perform_createNew_new hnew),
    FileOperation.performAll_cons_of_ok rfl, FileOperation.performAll_cons_of_ok rfl,
    FileOperation.performAll_cons_of_ok rfl, FileOperation.performAll_cons_of_ok
      (FileOperation.perform_linkKeyfile rfl TreeMap.getElem?_insert_self)]
  rfl

/-- A store for which there is a file already does nothing. -/
theorem store_existing (hexists : home.permanentKeys[identifier]? = some contents) :
    store codec nonce data identifier home = (home, .err .fileExists) := by
  exact FileOperation.performAll_cons_of_err (FileOperation.perform_createNew_existing hexists)

/-- A store replaces the key file and leaves the temporary files alone, or it does nothing. -/
theorem store_cases (nonce : Nonce) (data : Plaintext) (identifier : String)
    (home : HomeDirectory Contents) :
    (store codec nonce data identifier home).1 = home ∧
        (store codec nonce data identifier home).2 = .err .fileExists ∨
      (store codec nonce data identifier home).1.key = some (codec.encrypt nonce data) ∧
        (store codec nonce data identifier home).1.temporaryKeys = home.temporaryKeys := by
  cases hfile : home.permanentKeys[identifier]? with
  | none =>
    rw [store_new codec hfile]
    exact .inr ⟨rfl, rfl⟩
  | some =>
    rw [store_existing codec hfile]
    exact .inl ⟨rfl, rfl⟩

end LocalPermanentKeyStorageBackend

/-! ### Permanent storage -/

namespace PermanentKeyStorage

variable (home : HomeDirectory Contents)

def load : KeyshareResult (Option PermanentKeyshareData) := do
  match ← LocalPermanentKeyStorageBackend.load codec home with
  | none => return none
  | some data => do
      let parsed ← okOr (codec.deserializePermanent data) .deserializationFailed
      return some parsed

def identifier (data : PermanentKeyshareData) : String :=
  "epoch_" ++ toString data.epochId ++ "_with_" ++ toString data.keyshares.length ++ "_domains"

variable (nonce : Nonce) (data : PermanentKeyshareData)

def storeUnchecked : FileEffect Contents Unit :=
  LocalPermanentKeyStorageBackend.store codec nonce (codec.serializePermanent data)
    (identifier data)

/-- The checks of `store` against what is stored, if anything is. -/
def checkExisting (data : PermanentKeyshareData) (home : HomeDirectory Contents) :
    KeyshareResult Unit := do
  match ← load codec home with
  | some existing => existing.checkOverwrite data
  | none => return ()

def store : FileEffect Contents Unit := do
  .read (checkExisting codec data)
  storeUnchecked codec nonce data

/-- The stored data, if it is in the old format. -/
def loadLegacy : KeyshareResult (Option LegacyRootKeyshareData) := do
  match ← LocalPermanentKeyStorageBackend.load codec home with
  | none => return none
  | some data =>
      match codec.deserializePermanent data with
      | some _ => return none
      | none => do
          let legacy ← okOr (codec.deserializeLegacy data) .deserializationFailed
          return some legacy

/-- `PermanentKeyStorage::new`: data in the old format is stored in the new one. -/
def new (nonce : Nonce) : FileEffect Contents Unit := do
  match ← .read (loadLegacy codec) with
  | none => pure ()
  | some legacy => storeUnchecked codec nonce (.fromLegacy legacy)

/-- The permanent keyshares in the key file, in either format. -/
def held : Option PermanentKeyshareData := do
  let data ← codec.decrypt (← home.key)
  match codec.deserializePermanent data with
  | some parsed => some parsed
  | none => (codec.deserializeLegacy data).map .fromLegacy

variable {home : HomeDirectory Contents} {data : PermanentKeyshareData}

theorem held_eq_of_key {nonce}
    (hkey : home.key = some (codec.encrypt nonce (codec.serializePermanent data))) :
    held codec home = some data := by
  simp [held, hkey, codec.decrypt_encrypt, codec.deserializePermanent_serializePermanent]

/-- Loading answers with what is held, and fails for the old format. -/
theorem load_eq_ok {data} (hok : load codec home = .ok data) : held codec home = data := by
  unfold load LocalPermanentKeyStorageBackend.load at hok
  unfold held
  cases hkey : home.key with
  | none =>
    simp only [hkey, ok_bind, pure_eq, ok.injEq] at hok
    rw [← hok]
    rfl
  | some =>
    simp only [hkey, bind_eq_ok, okOr_eq_ok, pure_eq, ok.injEq] at hok
    obtain ⟨_, ⟨_, hdecrypted, rfl⟩, hparsed⟩ := hok
    simp only [bind_eq_ok, okOr_eq_ok, ok.injEq] at hparsed
    obtain ⟨_, hparsed, rfl⟩ := hparsed
    simp [hdecrypted, hparsed]

theorem held_of_loadLegacy {legacy} (hok : loadLegacy codec home = .ok (some legacy)) :
    held codec home = some (.fromLegacy legacy) := by
  unfold loadLegacy LocalPermanentKeyStorageBackend.load at hok
  unfold held
  cases hkey : home.key with
  | none => simp [hkey] at hok
  | some =>
    simp only [hkey, bind_eq_ok, okOr_eq_ok, pure_eq, ok.injEq] at hok
    obtain ⟨_, ⟨decrypted, hdecrypted, rfl⟩, hlegacy⟩ := hok
    cases hparsed : codec.deserializePermanent decrypted with
    | some => simp [hparsed] at hlegacy
    | none =>
      simp only [hparsed, bind_eq_ok, okOr_eq_ok, ok.injEq, Option.some.injEq] at hlegacy
      obtain ⟨_, hfound, rfl⟩ := hlegacy
      simp [hdecrypted, hparsed, hfound]

/-- The data is held afterwards, or a file was in the way and nothing has changed. -/
theorem storeUnchecked_cases (nonce : Nonce) (data : PermanentKeyshareData)
    (home : HomeDirectory Contents) :
    (storeUnchecked codec nonce data home).1 = home ∧
        (storeUnchecked codec nonce data home).2 = .err .fileExists ∨
      held codec (storeUnchecked codec nonce data home).1 = some data ∧
        (storeUnchecked codec nonce data home).1.temporaryKeys = home.temporaryKeys := by
  rcases LocalPermanentKeyStorageBackend.store_cases codec nonce (codec.serializePermanent data)
    (identifier data) home with hfailed | ⟨hkey, htemporary⟩
  · exact .inl hfailed
  · exact .inr ⟨held_eq_of_key codec hkey, htemporary⟩

theorem checkOverwrite_of_checkExisting {existing done}
    (hok : checkExisting codec data home = .ok done) (hheld : held codec home = some existing) :
    existing.checkOverwrite data = .ok () := by
  simp only [checkExisting, bind_eq_ok] at hok
  obtain ⟨_, hload, hcheck⟩ := hok
  rw [load_eq_ok codec hload] at hheld
  rw [hheld] at hcheck
  exact hcheck

theorem store_eq_ok {nonce after} (hok : store codec nonce data home = (after, .ok ())) :
    held codec after = some data := by
  unfold store at hok
  rw [Effect.read_bind_eq_ok] at hok
  obtain ⟨⟨⟩, -, hstore⟩ := hok
  have hcases := storeUnchecked_cases codec nonce data home
  rw [hstore] at hcases
  rcases hcases with ⟨-, hfailed⟩ | ⟨hheld, -⟩
  · cases hfailed
  · exact hheld

end PermanentKeyStorage

/-! ### Names of temporary files -/

namespace TemporaryKeyStorage

/-- `format!("{kind}_{}_{}_{}")` -/
def filename (kind : List Char) (keyId : KeyEventId) : String :=
  String.ofList (List.intercalate ['_']
    [kind, Nat.toDigits 10 keyId.epochId, Nat.toDigits 10 keyId.domainId,
      Nat.toDigits 10 keyId.attemptId])

def keysharePath (keyId : KeyEventId) : String := filename "keyshare".toList keyId

def keyshareStartedPath (keyId : KeyEventId) : String := filename "started".toList keyId

/-- `str::parse::<u64>` -/
def parseU64 (text : List Char) : KeyshareResult ℕ := do
  let digits := match text with
    | '+' :: rest => rest
    | _ => text
  require (digits ≠ [] ∧ digits.all Char.isDigit = true) .invalidInteger
  require (Nat.ofDigitChars 10 digits 0 < 2 ^ 64) .invalidInteger
  return Nat.ofDigitChars 10 digits 0

def getEpochIdFromFilename (filename : String) : KeyshareResult (Option EpochId) :=
  match filename.toList.splitOn '_' with
  | [_, epochId, _, _] => do
      let epochId ← parseU64 epochId
      return some epochId
  | _ => .err (.invalidFilename filename)

theorem not_mem_toDigits {separator} (hseparator : separator.isDigit = false) (value : ℕ) :
    separator ∉ Nat.toDigits 10 value := by
  intro hmem
  have hdigit := Nat.isDigit_of_mem_toDigits (by decide) (by decide) hmem
  rw [hseparator] at hdigit
  cases hdigit

/-- The parts of a name are read back. -/
theorem splitOn_filename {kind} (hkind : '_' ∉ kind) (keyId : KeyEventId) :
    (filename kind keyId).toList.splitOn '_' =
      [kind, Nat.toDigits 10 keyId.epochId, Nat.toDigits 10 keyId.domainId,
        Nat.toDigits 10 keyId.attemptId] := by
  rw [filename, String.toList_ofList]
  refine List.splitOn_intercalate '_' ?_ (by simp)
  simp only [List.mem_cons, List.not_mem_nil, or_false, forall_eq_or_imp, forall_eq]
  exact ⟨hkind, not_mem_toDigits rfl _, not_mem_toDigits rfl _, not_mem_toDigits rfl _⟩

theorem parseU64_toDigits {value parsed} (hok : parseU64 (Nat.toDigits 10 value) = .ok parsed) :
    parsed = value := by
  have hsign : '+' ∉ Nat.toDigits 10 value := not_mem_toDigits rfl value
  have hplus : ∀ rest, Nat.toDigits 10 value ≠ '+' :: rest := by
    intro _ heq
    rw [heq] at hsign
    exact hsign List.mem_cons_self
  simp only [parseU64, bind_eq_ok, require_eq_ok, exists_const, pure_eq, ok.injEq] at hok
  obtain ⟨-, -, hparsed⟩ := hok
  rw [← hparsed, Nat.ofDigitChars_ten_toDigits]

variable {epochId : EpochId}

/-- The epoch that is read from the name of a file is that of its key id. -/
theorem getEpochIdFromFilename_filename {kind} (hkind : '_' ∉ kind) {keyId}
    (hok : getEpochIdFromFilename (filename kind keyId) = .ok (some epochId)) :
    epochId = keyId.epochId := by
  unfold getEpochIdFromFilename at hok
  rw [splitOn_filename hkind] at hok
  simp only [bind_eq_ok, pure_eq, ok.injEq, Option.some.injEq] at hok
  obtain ⟨_, hparsed, rfl⟩ := hok
  exact parseU64_toDigits hparsed

/-! ### Temporary storage -/

/-- Allows one commit of a keyshare. -/
structure PendingKeyshareStorageHandle where
  path : String
  keyId : KeyEventId
deriving DecidableEq, Repr

/-- A new file with the given contents. -/
def createTemporary (path : String) (contents : Contents) : FileEffect Contents Unit := fun home ↦
  if home.temporaryKeys.contains path then (home, .err .fileExists)
  else ({ home with temporaryKeys := home.temporaryKeys.insert path contents }, .ok ())

/-- Succeeds at most once for each key id. -/
def startGeneratingKeyshare (keyId : KeyEventId) :
    FileEffect Contents PendingKeyshareStorageHandle := do
  createTemporary (keyshareStartedPath keyId) codec.emptyFile
  return { path := keysharePath keyId, keyId }

def loadKeyshare (keyId : KeyEventId) (home : HomeDirectory Contents) :
    KeyshareResult (Option Keyshare) :=
  match home.temporaryKeys[keysharePath keyId]? with
  | none => .ok none
  | some data => do
      let decrypted ← okOr (codec.decrypt data) .decryptionFailed
      let keyshare ← okOr (codec.deserializeKeyshare decrypted) .deserializationFailed
      require (keyshare.keyId = keyId) (.unexpectedKeyId keyshare.keyId)
      return some keyshare

/-- The loop over the entries of the directory. -/
def deleteEntries (epochId : EpochId) : List String → FileEffect Contents Unit
  | [] => pure ()
  | filename :: rest => do
      match ← .lift (getEpochIdFromFilename filename) with
      | none => deleteEntries epochId rest
      | some existingEpochId => do
          if existingEpochId < epochId then
            .modify fun home ↦
              { home with temporaryKeys := home.temporaryKeys.erase filename }
          deleteEntries epochId rest

def deleteKeysharesPriorToEpochId (epochId : EpochId) : FileEffect Contents Unit := fun home ↦
  deleteEntries epochId home.temporaryKeys.keys home

def PendingKeyshareStorageHandle.commitKeyshare (handle : PendingKeyshareStorageHandle)
    (nonce : Nonce) (keyshare : Keyshare) : FileEffect Contents Unit := do
  .lift (require (keyshare.keyId = handle.keyId) (.unexpectedKeyId keyshare.keyId))
  createTemporary handle.path (codec.encrypt nonce (codec.serializeKeyshare keyshare))

variable {home : HomeDirectory Contents}

theorem createTemporary_eq_ok {path after}
    (hok : createTemporary path contents home = (after, .ok ())) :
    home.temporaryKeys[path]? = none ∧
      after = { home with temporaryKeys := home.temporaryKeys.insert path contents } := by
  unfold createTemporary at hok
  split_ifs at hok with hexists
  · cases hok
  · refine ⟨?_, (Prod.mk.inj hok).1.symm⟩
    rw [← Option.not_isSome_iff_eq_none, TreeMap.isSome_getElem?_eq_contains]
    exact hexists

/-- A keyshare that has been committed is loaded. -/
theorem loadKeyshare_of_stored {keyshare nonce}
    (hstored : home.temporaryKeys[keysharePath keyshare.keyId]? =
      some (codec.encrypt nonce (codec.serializeKeyshare keyshare))) :
    loadKeyshare codec keyshare.keyId home = .ok (some keyshare) := by
  simp [loadKeyshare, hstored, okOr, codec.decrypt_encrypt,
    codec.deserializeKeyshare_serializeKeyshare, require_pos]

theorem loadKeyshare_keyId {keyId keyshare}
    (hok : loadKeyshare codec keyId home = .ok (some keyshare)) : keyshare.keyId = keyId := by
  unfold loadKeyshare at hok
  split at hok
  · cases hok
  · simp only [bind_eq_ok, okOr_eq_ok, require_eq_ok, exists_const, pure_eq, ok.injEq,
      Option.some.injEq] at hok
    obtain ⟨_, -, _, -, hid, rfl⟩ := hok
    exact hid

/-- Only temporary files are deleted, and only those with a name of an older epoch. -/
structure DeletesPrior (epochId : EpochId) (before after : HomeDirectory Contents) : Prop where
  key : after.key = before.key
  files : ∀ filename contents, before.temporaryKeys[filename]? = some contents →
    after.temporaryKeys[filename]? = some contents ∨
      ∃ existing, getEpochIdFromFilename filename = .ok (some existing) ∧ existing < epochId

theorem DeletesPrior.refl (epochId : EpochId) (home : HomeDirectory Contents) :
    DeletesPrior epochId home home where
  key := rfl
  files := fun _ _ hfile ↦ .inl hfile

theorem DeletesPrior.trans {first middle last : HomeDirectory Contents}
    (hfirst : DeletesPrior epochId first middle) (hlast : DeletesPrior epochId middle last) :
    DeletesPrior epochId first last where
  key := hlast.key.trans hfirst.key
  files := by
    intro filename contents hfile
    rcases hfirst.files filename contents hfile with hmiddle | holder
    · exact hlast.files filename contents hmiddle
    · exact .inr holder

theorem deletesPrior_erase {existing filename}
    (hname : getEpochIdFromFilename filename = .ok (some existing)) (holder : existing < epochId)
    (home : HomeDirectory Contents) :
    DeletesPrior epochId home
      { home with temporaryKeys := home.temporaryKeys.erase filename } where
  key := rfl
  files := by
    intro other _ hfile
    by_cases hother : compare filename other = .eq
    · obtain rfl : filename = other := Std.LawfulEqOrd.eq_of_compare hother
      exact .inr ⟨existing, hname, holder⟩
    · refine .inl ?_
      rw [TreeMap.getElem?_erase, if_neg hother]
      exact hfile

/-- However far the loop gets. -/
theorem deleteEntries_within (epochId : EpochId) (filenames : List String) :
    (deleteEntries epochId filenames : FileEffect Contents Unit).Within (DeletesPrior epochId) := by
  induction filenames with
  | nil => exact fun home ↦ DeletesPrior.refl epochId home
  | cons filename _ ih =>
    unfold deleteEntries
    refine .bind_returns
      (fun epochId? ↦ getEpochIdFromFilename filename = .ok epochId?)
      (fun _ _ _ ↦ DeletesPrior.trans) (.lift (DeletesPrior.refl epochId) _)
      (Effect.Returns.lift fun _ hname ↦ hname) ?_
    intro epochId? hname
    cases epochId? with
    | none => exact ih
    | some existing =>
      by_cases holder : existing < epochId
      · simp only [if_pos holder]
        exact .bind (fun _ _ _ ↦ DeletesPrior.trans)
          (.modify (deletesPrior_erase hname holder)) fun _ ↦ ih
      · simp only [if_neg holder]
        exact ih

end TemporaryKeyStorage

/-! ### A codec to evaluate with -/

/-- A file in the clear. -/
inductive PlainFile where
  | empty
  | permanent (data : PermanentKeyshareData)
  | legacy (data : LegacyRootKeyshareData)
  | keyshare (keyshare : Keyshare)
deriving DecidableEq, Repr

def plainCodec : KeyshareCodec PlainFile PlainFile Unit where
  emptyFile := .empty
  encrypt := fun _ plaintext ↦ plaintext
  decrypt := some
  serializePermanent := .permanent
  deserializePermanent
    | .permanent data => some data
    | _ => none
  deserializeLegacy
    | .legacy data => some data
    | _ => none
  serializeKeyshare := .keyshare
  deserializeKeyshare
    | .keyshare keyshare => some keyshare
    | _ => none
  decrypt_encrypt := fun _ _ ↦ rfl
  deserializePermanent_serializePermanent := fun _ ↦ rfl
  deserializeKeyshare_serializeKeyshare := fun _ ↦ rfl

end NearMpc.Node
