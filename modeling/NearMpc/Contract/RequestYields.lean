import NearMpc.Contract.Requests
import NearMpc.Library.Suspension

/-!
# Yields of the contract along a run

Runs of the contract interleave submissions of requests, responses of nodes, callbacks of the host
and the calls on the protocol state, in any order. The host remembers the yields that submissions
have created; the position of a yield among them is its data id. Callbacks may come at any time and
for any request, which includes every order in which a host may time out.

The three maps of pending requests together are one table of suspended computations, keyed by the
request (`YieldingContract.table`): a submission suspends, a response resumes and a timeout drops.
`table_apply` is the refinement step: a call leaves the table alone or acts on it by one action of
`Suspensions`. So the general facts about such tables apply: no yield is resumed twice, and a yield
is only resumed by a response to the request that created it, although equal requests overwrite each
other's entries and old callbacks remove newer ones.
-/

set_option autoImplicit false

namespace NearMpc.Contract

open Library Library.Outcome RequestContract

/-! ### Runs -/

/-- What a yield waits for. -/
inductive YieldedRequest where
  | signature (request : SignatureRequest)
  | ckd (request : CKDRequest)
  | foreignTx (request : VerifyForeignTransactionRequest)
deriving DecidableEq

structure YieldingContract where
  requests : RequestContract
  /-- The requests of all yields created so far, oldest first. -/
  yields : List YieldedRequest

inductive RequestMethod where
  | onProtocol (method : Method)
  | sign (args : SignRequestArgs)
  | requestAppPrivateKey (args : CKDRequestArgs)
  | verifyForeignTransaction (args : VerifyForeignTransactionRequest)
  | respond (request : SignatureRequest) (response : SignatureResponse)
  | respondCkd (request : CKDRequest) (response : CKDResponse)
  | respondVerifyForeignTx (request : VerifyForeignTransactionRequest)
      (response : VerifyForeignTransactionResponse)
  | returnSignature (request : SignatureRequest) (signature : Option SignatureResponse)
  | returnCk (request : CKDRequest) (ck : Option CKDResponse)
  | returnVerifyForeignTx (request : VerifyForeignTransactionRequest)
      (response : Option VerifyForeignTransactionResponse)

structure RequestCall where
  context : RequestContext
  tee : TeeView
  method : RequestMethod

namespace YieldingContract

/-- A contract that has not yielded yet. -/
def fresh (contract : MpcContract) : YieldingContract where
  requests :=
    { contract
      pendingSignatureRequests := fun _ ↦ none
      pendingCkdRequests := fun _ ↦ none
      pendingVerifyForeignTxRequests := fun _ ↦ none
      metrics := {} }
  yields := []

section Runs

variable {G EdwardsPoint : Type} [AddCommGroup G] [DecidableEq G]
  [AddCommGroup EdwardsPoint] (host : SignatureHost G EdwardsPoint) (self : YieldingContract)
  (call : RequestCall)

/-- The state after a call, and the yield that the call resumes. -/
def perform : Outcome RequestError (YieldingContract × Option DataId) :=
  match call.method with
  | .onProtocol method => do
      let contract ← mapErr .contract
        (self.requests.contract.perform { env := call.context.toEnv, tee := call.tee, method })
      return ({ self with requests := { self.requests with contract } }, none)
  | .sign args => do
      let (requests, request) ← self.requests.sign host call.context self.yields.length args
      return ({ requests, yields := self.yields ++ [.signature request] }, none)
  | .requestAppPrivateKey args => do
      let (requests, request) ←
        self.requests.requestAppPrivateKey host call.context self.yields.length args
      return ({ requests, yields := self.yields ++ [.ckd request] }, none)
  | .verifyForeignTransaction args => do
      let (requests, request) ←
        self.requests.verifyForeignTransaction call.context self.yields.length args
      return ({ requests, yields := self.yields ++ [.foreignTx request] }, none)
  | .respond request response => do
      let (requests, dataId) ←
        self.requests.respond host call.context.toEnv call.tee request response
      return ({ self with requests }, some dataId)
  | .respondCkd request _ => do
      let (requests, dataId) ← self.requests.respondCkd call.context.toEnv call.tee request
      return ({ self with requests }, some dataId)
  | .respondVerifyForeignTx request response => do
      let (requests, dataId) ←
        self.requests.respondVerifyForeignTx host call.context.toEnv call.tee request response
      return ({ self with requests }, some dataId)
  | .returnSignature request signature =>
      .ok ({ self with
        requests := (self.requests.returnSignatureAndCleanStateOnSuccess request signature).1 },
        none)
  | .returnCk request ck =>
      .ok ({ self with
        requests := (self.requests.returnCkAndCleanStateOnSuccess request ck).1 }, none)
  | .returnVerifyForeignTx request response =>
      .ok ({ self with
        requests :=
          (self.requests.returnVerifyForeignTxAndCleanStateOnSuccess request response).1 }, none)

/-- One transaction: a failed call changes nothing. -/
def apply : YieldingContract :=
  match self.perform host call with
  | .ok (after, _) => after
  | _ => self

/-- The yield that a call resumes. -/
def resumedBy : Option DataId :=
  match self.perform host call with
  | .ok (_, resumed) => resumed
  | _ => none

/-- The yields that a run resumes, oldest first. -/
def resumedIds : YieldingContract → List RequestCall → List DataId
  | _, [] => []
  | self, call :: rest =>
      (self.resumedBy host call).toList ++ resumedIds (self.apply host call) rest

/-! ### Who may resume a yield -/

/-- The response is a signature of the payload under the key derived from the key of the domain and
the tweak of the request. -/
def Verifies (request : SignatureRequest) (response : SignatureResponse)
    (publicKey : PublicKeyExtended) : Prop :=
  match response, publicKey with
  | .secp256k1 signature, .secp256k1 nearPublicKey =>
      ∃ keyBytes point derived hash, host.secp256k1Key nearPublicKey = some keyBytes ∧
        host.secp256k1Point keyBytes = some point ∧
        host.deriveKeySecp256k1 point request.tweak = some derived ∧
        request.payload = .ecdsa hash ∧
        host.ecrecover hash signature.toEcrecoverBytes signature.recoveryId = some derived
  | .ed25519 signature, .ed25519 nearPublicKeyCompressed =>
      ∃ message, request.payload = .eddsa message ∧
        host.ed25519Verify signature message.bytes
          (host.compress (host.derivePublicKeyEdwardsPointEd25519
            (host.edwardsPoint nearPublicKeyCompressed) request.tweak)) = true
  | _, _ => False

/-- The call responds to the request, as an attested participant; a signature verifies under the key
that the domain has when the call is made. -/
def Answers (request : YieldedRequest) : Prop :=
  self.requests.contract.assertCallerIsAttestedParticipantAndProtocolActive call.context.toEnv
      call.tee = .ok () ∧
    match request with
    | .signature request => ∃ response publicKey, call.method = .respond request response ∧
        self.requests.contract.protocolState.publicKey request.domainId = .ok publicKey ∧
        Verifies host request response publicKey
    | .ckd request => ∃ response, call.method = .respondCkd request response
    | .foreignTx request => ∃ response, call.method = .respondVerifyForeignTx request response

variable {request : SignatureRequest}

theorem verifies_of_signatureIsValid {response publicKey}
    (hok : signatureIsValid host request response publicKey = .ok true) :
    Verifies host request response publicKey := by
  unfold signatureIsValid at hok
  split at hok
  next signature nearPublicKey =>
    simp only [bind_eq_ok, unwrap_eq_ok, okOr_eq_ok, pure_eq, ok.injEq] at hok
    obtain ⟨keyBytes, hkey, point, hpoint, derived, hderived, hash, hpayload, hverified⟩ := hok
    refine ⟨keyBytes, point, derived, hash, hkey, hpoint, hderived, ?_, ?_⟩
    · cases hrequest : request.payload with
      | ecdsa => simpa [hrequest, Payload.asEcdsa] using hpayload
      | eddsa => simp [hrequest, Payload.asEcdsa] at hpayload
    · unfold SignatureHost.verifyEcdsaSignature at hverified
      split at hverified
      · cases hverified
      · next recovered hrecovered => rw [hrecovered, eq_of_beq hverified]
  next signature nearPublicKeyCompressed =>
    simp only [bind_eq_ok, unwrap_eq_ok, pure_eq, ok.injEq] at hok
    obtain ⟨_, hpayload, hverified⟩ := hok
    cases hrequest : request.payload with
    | ecdsa => simp [hrequest, Payload.asEddsa] at hpayload
    | eddsa bounded =>
      simp only [hrequest, Payload.asEddsa, Option.some.injEq] at hpayload
      subst hpayload
      exact ⟨bounded, hrequest, hverified⟩
  next => cases hok

/-! ### The table of yields -/

/-- The three maps of pending requests as one. -/
def waitingIn (signatures : PendingRequests SignatureRequest) (keys : PendingRequests CKDRequest)
    (transactions : PendingRequests VerifyForeignTransactionRequest) :
    PendingRequests YieldedRequest
  | .signature request => signatures request
  | .ckd request => keys request
  | .foreignTx request => transactions request

section Maps

variable (signatures : PendingRequests SignatureRequest) (keys : PendingRequests CKDRequest)
  (transactions : PendingRequests VerifyForeignTransactionRequest) (entry : Option DataId)

theorem waitingIn_update_signature (request : SignatureRequest) :
    waitingIn (Function.update signatures request entry) keys transactions =
      Function.update (waitingIn signatures keys transactions) (.signature request) entry := by
  ext1 yielded
  cases yielded <;> simp [waitingIn, Function.update_apply]

theorem waitingIn_update_ckd (request : CKDRequest) :
    waitingIn signatures (Function.update keys request entry) transactions =
      Function.update (waitingIn signatures keys transactions) (.ckd request) entry := by
  ext1 yielded
  cases yielded <;> simp [waitingIn, Function.update_apply]

theorem waitingIn_update_foreignTx (request : VerifyForeignTransactionRequest) :
    waitingIn signatures keys (Function.update transactions request entry) =
      Function.update (waitingIn signatures keys transactions) (.foreignTx request) entry := by
  ext1 yielded
  cases yielded <;> simp [waitingIn, Function.update_apply]

end Maps

/-- The yields of the contract as a table of suspended computations. -/
def table (self : YieldingContract) : Suspensions YieldedRequest where
  created := self.yields
  waiting := waitingIn self.requests.pendingSignatureRequests self.requests.pendingCkdRequests
    self.requests.pendingVerifyForeignTxRequests

/-- A successful call leaves the table alone, or acts on it once; if it resumes a yield, it answers
the request under which the yield waits. -/
inductive TableChange (self : YieldingContract) (call : RequestCall) :
    YieldingContract → Option DataId → Prop where
  | unchanged {after : YieldingContract} (htable : after.table = self.table) :
      TableChange self call after none
  | acted {after : YieldingContract} {resumed : Option DataId}
      (action : SuspensionAction YieldedRequest)
      (htable : after.table = self.table.step action)
      (hresumed : resumed = self.table.resumedBy action)
      (hanswers : ∀ request, action = .resume request → Answers host self call request) :
      TableChange self call after resumed

section Changes

variable {host} {self after : YieldingContract} {call : RequestCall}

theorem TableChange.suspend (request : YieldedRequest)
    (hyields : after.yields = self.yields ++ [request])
    (hwaiting : after.table.waiting =
      Function.update self.table.waiting request (some self.table.created.length)) :
    TableChange host self call after none := by
  refine .acted (.suspend request) ?_ rfl (fun _ hresume ↦ by cases hresume)
  rw [Suspensions.step, ← hwaiting, table, hyields]
  rfl

theorem TableChange.resume (request : YieldedRequest) {dataId}
    (hyields : after.yields = self.yields) (hfound : self.table.waiting request = some dataId)
    (hwaiting : after.table.waiting = Function.update self.table.waiting request none)
    (hanswers : Answers host self call request) :
    TableChange host self call after (some dataId) := by
  refine .acted (.resume request) ?_ hfound.symm ?_
  · rw [Suspensions.step, ← hwaiting, table, hyields]
    rfl
  · intro _ hresume
    rwa [← SuspensionAction.resume.inj hresume]

theorem TableChange.drop (request : YieldedRequest) (hyields : after.yields = self.yields)
    (hwaiting : after.table.waiting = Function.update self.table.waiting request none) :
    TableChange host self call after none := by
  refine .acted (.drop request) ?_ rfl (fun _ hresume ↦ by cases hresume)
  rw [Suspensions.step, ← hwaiting, table, hyields]
  rfl

end Changes

theorem resolve_eq_ok {Request : Type} [DecidableEq Request]
    {pending after : PendingRequests Request} {request : Request} {dataId : DataId}
    (hok : pending.resolve request = .ok (after, dataId)) :
    pending request = some dataId ∧ after = Function.update pending request none := by
  simp only [PendingRequests.resolve, bind_eq_ok, okOr_eq_ok, pure_eq, ok.injEq,
    Prod.mk.injEq] at hok
  obtain ⟨_, hfound, rfl, rfl⟩ := hok
  exact ⟨hfound, rfl⟩

section Methods

variable {self : YieldingContract} {call : RequestCall} {requests : RequestContract}
  {dataId : DataId}

theorem tableChange_sign {args}
    (hok : self.requests.sign host call.context self.yields.length args = .ok (requests, request)) :
    TableChange host self call
      { requests, yields := self.yields ++ [.signature request] } none := by
  simp only [sign, bind_eq_ok, pure_eq, ok.injEq, Prod.mk.injEq] at hok
  obtain ⟨_, -, _, -, -, -, -, -, -, -, rfl, rfl⟩ := hok
  exact .suspend (.signature _) rfl (waitingIn_update_signature _ _ _ _ _)

theorem tableChange_requestAppPrivateKey {args request}
    (hok : self.requests.requestAppPrivateKey host call.context self.yields.length args =
      .ok (requests, request)) :
    TableChange host self call { requests, yields := self.yields ++ [.ckd request] } none := by
  simp only [requestAppPrivateKey, bind_eq_ok, pure_eq, ok.injEq, Prod.mk.injEq] at hok
  obtain ⟨_, -, -, -, -, -, rfl, rfl⟩ := hok
  exact .suspend (.ckd _) rfl (waitingIn_update_ckd _ _ _ _ _)

theorem tableChange_verifyForeignTransaction {args request}
    (hok : self.requests.verifyForeignTransaction call.context self.yields.length args =
      .ok (requests, request)) :
    TableChange host self call
      { requests, yields := self.yields ++ [.foreignTx request] } none := by
  simp only [verifyForeignTransaction, bind_eq_ok, pure_eq, ok.injEq, Prod.mk.injEq] at hok
  obtain ⟨_, -, -, -, -, -, -, -, rfl, rfl⟩ := hok
  exact .suspend (.foreignTx _) rfl (waitingIn_update_foreignTx _ _ _ _ _)

theorem tableChange_respond {response : SignatureResponse}
    (hmethod : call.method = .respond request response)
    (hok : self.requests.respond host call.context.toEnv call.tee request response =
      .ok (requests, dataId)) :
    TableChange host self call { self with requests } (some dataId) := by
  simp only [respond, assertCallerIsAttestedParticipant,
    bind_eq_ok, mapErr_eq_ok, require_eq_ok, pure_eq, ok.injEq, Prod.mk.injEq,
    Prod.exists] at hok
  obtain ⟨_, -, _, hparticipant, -, -, publicKey, hkey, _, hvalid, -, rfl, _,
    _, hresolve, rfl, rfl⟩ := hok
  obtain ⟨hfound, rfl⟩ := resolve_eq_ok hresolve
  exact .resume (.signature request) rfl hfound (waitingIn_update_signature _ _ _ _ request)
    ⟨hparticipant, response, publicKey, hmethod, hkey, verifies_of_signatureIsValid host hvalid⟩

theorem tableChange_respondCkd {request : CKDRequest} {response : CKDResponse}
    (hmethod : call.method = .respondCkd request response)
    (hok : self.requests.respondCkd call.context.toEnv call.tee request = .ok (requests, dataId)) :
    TableChange host self call { self with requests } (some dataId) := by
  simp only [respondCkd, assertCallerIsAttestedParticipant,
    bind_eq_ok, mapErr_eq_ok, pure_eq, ok.injEq, Prod.mk.injEq, Prod.exists] at hok
  obtain ⟨_, -, -, -, _, hparticipant, _, _, hresolve, rfl, rfl⟩ := hok
  obtain ⟨hfound, rfl⟩ := resolve_eq_ok hresolve
  exact .resume (.ckd request) rfl hfound (waitingIn_update_ckd _ _ _ _ request)
    ⟨hparticipant, response, hmethod⟩

theorem tableChange_respondVerifyForeignTx {request : VerifyForeignTransactionRequest}
    {response : VerifyForeignTransactionResponse}
    (hmethod : call.method = .respondVerifyForeignTx request response)
    (hok : self.requests.respondVerifyForeignTx host call.context.toEnv call.tee request response =
      .ok (requests, dataId)) :
    TableChange host self call { self with requests } (some dataId) := by
  simp only [respondVerifyForeignTx,
    assertCallerIsAttestedParticipant, bind_eq_ok, mapErr_eq_ok, require_eq_ok,
    pure_eq, ok.injEq, Prod.mk.injEq, Prod.exists] at hok
  obtain ⟨_, -, _, hparticipant, -, -, _, -, _, -, -, -, _, _,
    hresolve, rfl, rfl⟩ := hok
  obtain ⟨hfound, rfl⟩ := resolve_eq_ok hresolve
  exact .resume (.foreignTx request) rfl hfound (waitingIn_update_foreignTx _ _ _ _ request)
    ⟨hparticipant, response, hmethod⟩

end Methods

theorem tableChange_perform {self after call resumed}
    (hok : self.perform host call = .ok (after, resumed)) :
    TableChange host self call after resumed := by
  unfold perform at hok
  cases hmethod : call.method
  all_goals
    simp only [hmethod, bind_eq_ok, pure_eq, ok.injEq, Prod.mk.injEq, Prod.exists] at hok
  case onProtocol method =>
    obtain ⟨_, -, rfl, rfl⟩ := hok
    exact .unchanged rfl
  case sign args =>
    obtain ⟨_, _, hsign, rfl, rfl⟩ := hok
    exact tableChange_sign host hsign
  case requestAppPrivateKey args =>
    obtain ⟨_, _, hrequest, rfl, rfl⟩ := hok
    exact tableChange_requestAppPrivateKey host hrequest
  case verifyForeignTransaction args =>
    obtain ⟨_, _, hverify, rfl, rfl⟩ := hok
    exact tableChange_verifyForeignTransaction host hverify
  case respond request response =>
    obtain ⟨_, _, hrespond, rfl, rfl⟩ := hok
    exact tableChange_respond host hmethod hrespond
  case respondCkd request response =>
    obtain ⟨_, _, hrespond, rfl, rfl⟩ := hok
    exact tableChange_respondCkd host hmethod hrespond
  case respondVerifyForeignTx request response =>
    obtain ⟨_, _, hrespond, rfl, rfl⟩ := hok
    exact tableChange_respondVerifyForeignTx host hmethod hrespond
  case returnSignature request signature =>
    obtain ⟨rfl, rfl⟩ := hok
    cases signature with
    | some => exact .unchanged rfl
    | none => exact .drop (.signature request) rfl (waitingIn_update_signature _ _ _ _ request)
  case returnCk request ck =>
    obtain ⟨rfl, rfl⟩ := hok
    cases ck with
    | some => exact .unchanged rfl
    | none => exact .drop (.ckd request) rfl (waitingIn_update_ckd _ _ _ _ request)
  case returnVerifyForeignTx request response =>
    obtain ⟨rfl, rfl⟩ := hok
    cases response with
    | some => exact .unchanged rfl
    | none => exact .drop (.foreignTx request) rfl (waitingIn_update_foreignTx _ _ _ _ request)

/-- The refinement step: what a call does to the table, and which yield it resumes. -/
theorem tableChange_apply (self : YieldingContract) (call : RequestCall) :
    TableChange host self call (self.apply host call) (self.resumedBy host call) := by
  cases hperform : self.perform host call with
  | ok =>
    have hchange := tableChange_perform host hperform
    simpa only [apply, resumedBy, hperform] using hchange
  | err | panicked =>
    simp only [apply, resumedBy, hperform]
    exact .unchanged rfl

/-- A run of the contract acts on its table like some run of the table. -/
theorem table_run (self : YieldingContract) (calls : List RequestCall) :
    ∃ actions, (run (apply host) self calls).table = run Suspensions.step self.table actions ∧
      resumedIds host self calls = self.table.resumed actions := by
  induction calls generalizing self with
  | nil => exact ⟨[], rfl, rfl⟩
  | cons call _ ih =>
    obtain ⟨actions, htable, hresumed⟩ := ih (self.apply host call)
    have hchange := self.tableChange_apply host call
    rw [run_cons, resumedIds, hresumed]
    generalize self.resumedBy host call = resumed at hchange
    cases hchange with
    | unchanged hsame =>
      rw [hsame] at htable ⊢
      exact ⟨actions, htable, rfl⟩
    | acted action hstep hresumedBy =>
      rw [hstep] at htable ⊢
      refine ⟨action :: actions, htable, ?_⟩
      rw [Suspensions.resumed, hresumedBy]

variable (contract : MpcContract) (calls : List RequestCall)

theorem sound_run : (run (apply host) (fresh contract) calls).table.Sound := by
  obtain ⟨actions, htable, -⟩ := table_run host (fresh contract) calls
  have hfresh : (fresh contract).table.Sound := by
    intro request _ hwaiting
    cases request <;> cases hwaiting
  rw [htable]
  exact run_invariant hfresh (fun _ action hsound ↦ hsound.step action) actions

/-! ### Safety of yields -/

/-- In every run no yield is resumed twice; a yield that a call resumes has been created, and the
call answers the request it was created for. -/
theorem yields_resumed_once :
    (resumedIds host (fresh contract) calls).Nodup ∧
      ∀ call dataId,
        (run (apply host) (fresh contract) calls).resumedBy host call = some dataId →
        ∃ request, (run (apply host) (fresh contract) calls).yields[dataId]? = some request ∧
          Answers host (run (apply host) (fresh contract) calls) call request := by
  constructor
  · obtain ⟨actions, -, hresumed⟩ := table_run host (fresh contract) calls
    rw [hresumed]
    exact (Suspensions.resumed_nodup (sound_run host contract []) actions).1
  · intro call dataId hresumed
    have hchange := (run (apply host) (fresh contract) calls).tableChange_apply host call
    rw [hresumed] at hchange
    generalize (run (apply host) (fresh contract) calls).apply host call = after at hchange
    cases hchange with
    | acted _ _ hresumedBy hanswers =>
      obtain ⟨request, rfl, hcreated⟩ :=
        (sound_run host contract calls).resumedBy_key hresumedBy.symm
      exact ⟨request, hcreated, hanswers request rfl⟩

end Runs

namespace EqualRequests

def zeros : Bytes32 := ⟨List.replicate 32 0, by decide⟩

/-- The integers in place of both curves. -/
def integerHost : SignatureHost ℤ ℤ where
  sha3 := fun _ ↦ zeros
  scalarFromRepr := fun _ ↦ some 1
  generator := 1
  secp256k1Key := fun _ ↦ some [2]
  secp256k1Point := fun _ ↦ some 2
  secp256k1Bytes := fun point ↦ [UInt8.ofNat point.toNat]
  scalarFromBytesModOrder := fun _ ↦ 1
  edwardsBasepoint := 1
  edwardsPoint := fun _ ↦ 2
  compress := fun point ↦ [UInt8.ofNat point.toNat]
  ecrecover := fun _ _ _ ↦ some [3]
  ed25519Verify := fun _ _ _ ↦ false

def calledBy (account : AccountId) (method : RequestMethod) : RequestCall where
  context :=
    { MpcContract.TwoNodes.envOf account with
      prepaidGas := 10 ^ 14, attachedDeposit := 1
      config :=
        { signCallGasAttachmentRequirementTeraGas := 15
          ckdCallGasAttachmentRequirementTeraGas := 15 }
      chainInPolicy := fun _ ↦ false }
  tee := MpcContract.TwoNodes.attested
  method := method

def request : SignatureRequest where
  tweak := zeros
  payload := .ecdsa zeros
  domainId := 0

/-- Carol submits one request twice. -/
def submissions : List RequestCall :=
  List.replicate 2 (calledBy "carol" (.sign
    { path := "path", payloadV2 := some (.ecdsa zeros), deprecatedPayload := none
      domainId := some 0, deprecatedKeyVersion := none }))

def response : RequestCall :=
  calledBy "alice" (.respond request
    (.secp256k1 { bigR := ⟨List.replicate 33 0, by decide⟩, s := zeros, recoveryId := 0 }))

end EqualRequests

open EqualRequests MpcContract.TwoNodes in
/-- Of two equal requests the later is answered; the yield of the earlier one is never resumed. -/
theorem yields_resumed_once_equalRequests :
    resumedIds integerHost (fresh network) (submissions ++ [response, response]) = [1] ∧
      (resumedIds integerHost (fresh network) (submissions ++ [response, response])).Nodup ∧
      Answers integerHost (run (apply integerHost) (fresh network) submissions) response
        (.signature request) := by
  have honce := yields_resumed_once integerHost network (submissions ++ [response, response])
  refine ⟨by decide +kernel, honce.1, ?_⟩
  obtain ⟨_, hcreated, hanswers⟩ :=
    (yields_resumed_once integerHost network submissions).2 response 1 (by decide +kernel)
  have hrequest : (run (apply integerHost) (fresh network) submissions).yields[1]? =
      some (.signature request) := by decide +kernel
  rw [← Option.some_inj.mp (hcreated.symm.trans hrequest)]
  exact hanswers

end YieldingContract

end NearMpc.Contract
