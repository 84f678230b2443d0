import NearMpc.Threshold.Runs
import NearMpc.Threshold.Signature

/-!
# Presigning and signing based on oblivious transfer

The two rounds of presigning, which consume a pair of triples, and the single round of signing.
Follows `do_presign`, `do_sign_participant` and `do_sign_coordinator` of `ecdsa/ot_based_ecdsa`.

With shares of a key `x` and of two triples `(k, d, e)` and `(a, b, c)`, presigning opens `e`, `k +
a` and `x + b`. Everybody then holds a share of `k`, a share of `k * x`, and the point `R` with `k *
R = G` (`presigned`). Signing adds up the shares of `k * (h + r * x)` (`signed`). Rerandomising in
between divides `k` by a factor and adds the tweak to the key.
-/

set_option autoImplicit false

namespace NearMpc.Threshold.OtBasedEcdsa

open Library Library.Outcome ParticipantList SharedChannel Sharing

variable {F G : Type} [Field F] [DecidableEq F] [AddCommGroup G]
  [Module F G]

/-! ### Presigning -/

/-- What is sent during presigning: a share of `e`, then the shares of `alpha` and `beta`. -/
inductive PresignMessage (F : Type) where
  | e (share : F)
  | alphaBeta (alpha beta : F)

namespace PresignMessage

def toE : PresignMessage F → Option F
  | e share => some share
  | alphaBeta _ _ => none

def toAlphaBeta : PresignMessage F → Option (F × F)
  | e _ => none
  | alphaBeta alpha beta => some (alpha, beta)

end PresignMessage

namespace PresignProtocol

/-- The loop over the received shares of `e`. -/
def addShares (e : F) : List (Participant × F) → Outcome ProtocolError F
  | [] => .ok e
  | (_, eJ) :: rest => do
      require (eJ ≠ 0) (.assertionFailed
        "Received zero share of kd, indicating a triple wasn't available.")
      addShares (e + eJ) rest

variable [DecidableEq G] (curve : Curve F G)
  (protocol : PresignProtocol F G)

/-- The end of the first round: `e` is opened and checked. -/
def computeE (eI : F) (messages : List (Participant × F)) :
    Outcome ProtocolError F := do
  let e ← addShares eI messages
  require (protocol.args.triple0.2.bigC = e • curve.generator)
    (.assertionFailed "received incorrect shares of kd")
  return e

variable (e alphaI betaI : F)

/-- The end of the second round: `alpha` and `beta` are opened and checked. -/
def computeOutput (messages : List (Participant × F × F)) :
    Outcome ProtocolError (PresignOutput F G) := do
  let (share0, pub0) := protocol.args.triple0
  let (share1, pub1) := protocol.args.triple1
  let keygenOut := protocol.args.keygenOut
  let alpha := messages.foldl (fun alpha message ↦ alpha + message.2.1) alphaI
  let beta := messages.foldl (fun beta message ↦ beta + message.2.2) betaI
  require (alpha • curve.generator = pub0.bigA + pub1.bigA ∧
      beta • curve.generator = keygenOut.publicKey + pub1.bigB)
    (.assertionFailed "received incorrect shares of additive triple phase.")
  require (e ≠ 0) (.assertionFailed "failed to invert kd")
  return {
    bigR := e⁻¹ • pub0.bigB
    k := share0.a
    sigma := alpha * keygenOut.privateShare - (beta * share1.a - share1.c) }

/-- The second round, once the shares of `alpha` and `beta` are sent. -/
def openAlphaBeta : Party (PresignMessage F) (PresignOutput F G) := do
  let messages ← recvFromOthers PresignMessage.toAlphaBeta 1 protocol.participants protocol.me
  protocol.computeOutput curve e alphaI betaI messages

/-- The second round. -/
def secondRound (lambda e : F) :
    Party (PresignMessage F) (PresignOutput F G) := do
  let alphaI := lambda * protocol.args.triple0.1.a + lambda * protocol.args.triple1.1.a
  let betaI := lambda * protocol.args.keygenOut.privateShare + lambda * protocol.args.triple1.1.b
  sendMany 1 (some (.alphaBeta alphaI betaI))
  protocol.openAlphaBeta curve e alphaI betaI

/-- The first round, once the share of `e` is sent. -/
def openE (lambda eI : F) : Party (PresignMessage F) (PresignOutput F G) := do
  let messages ← recvFromOthers PresignMessage.toE 0 protocol.participants protocol.me
  let e ← protocol.computeE curve eI messages
  protocol.secondRound curve lambda e

/-- `do_presign` -/
def doPresign : Party (PresignMessage F) (PresignOutput F G) := do
  let lambda ← protocol.participants.lagrange protocol.me
  let eI := lambda * protocol.args.triple0.1.c
  sendMany 0 (some (.e eI))
  protocol.openE curve lambda eI

end PresignProtocol

/-! ### Signing -/

namespace SignProtocol

variable (curve : SigningCurve F G) (protocol : SignProtocol F G)

/-- The coordinator's signature from the shares. -/
def computeSignature (sI : F) (messages : List (Participant × F)) :
    Outcome ProtocolError (Signature F G) := do
  let s := messages.foldl (fun s message ↦ s + message.2) sI
  let signature := { bigR := protocol.presignature.bigR, s := curve.normalize s }
  require (Signature.verify curve signature protocol.publicKey protocol.msgHash = true)
    (.assertionFailed "signature failed to verify")
  return signature

def doSignParticipant : Party F (Option (Signature F G)) := do
  let sI ← computeSignatureShare curve.toCurve protocol
  sendPrivate 0 protocol.coordinator (some sI)
  return none

def doSignCoordinator : Party F (Option (Signature F G)) := do
  let sI ← computeSignatureShare curve.toCurve protocol
  let messages ← recvFromOthers some 0 protocol.participants protocol.me
  let signature ← protocol.computeSignature curve sI messages
  return some signature

/-- `fut_wrapper` -/
def doSign : Party F (Option (Signature F G)) :=
  if protocol.me = protocol.coordinator then protocol.doSignCoordinator curve
  else protocol.doSignParticipant curve

end SignProtocol

/-! ### What has been dealt -/

/-- A triple shared by polynomials. -/
structure Triple (F : Type) [Field F] (threshold : ReconstructionLowerBound) where
  a : Sharing F threshold.value
  b : Sharing F threshold.value
  c : Sharing F threshold.value
  product : c.secret = a.secret * b.secret
  participants : List Participant

/-- What a participant holds of a triple. -/
noncomputable def Triple.output (curve : Curve F G) {threshold : ReconstructionLowerBound}
    (triple : Triple F threshold) (participant : Participant) :
    TripleGenerationOutput F G :=
  ({ a := triple.a.share participant.scalar
     b := triple.b.share participant.scalar
     c := triple.c.share participant.scalar },
   { bigA := triple.a.secret • curve.generator
     bigB := triple.b.secret • curve.generator
     bigC := triple.c.secret • curve.generator
     participants := triple.participants
     threshold })

/-- The key and the two triples that presigning starts from. Their generation refuses a threshold
below two. -/
structure Dealing (F : Type) [Field F] where
  threshold : ReconstructionLowerBound
  two_le_threshold : 2 ≤ threshold.value
  key : Sharing F threshold.value
  triple0 : Triple F threshold
  triple1 : Triple F threshold

namespace Dealing

section Definitions

variable (dealing : Dealing F)

/-- The sharing of `k + a`. -/
noncomputable def alpha : Sharing F dealing.threshold.value :=
  dealing.triple0.a + dealing.triple1.a

/-- The sharing of `x + b`. -/
noncomputable def beta : Sharing F dealing.threshold.value :=
  dealing.key + dealing.triple1.b

/-- The sharing of `k * x`. -/
noncomputable def sigma : Sharing F dealing.threshold.value :=
  dealing.alpha.secret • dealing.key - (dealing.beta.secret • dealing.triple1.a - dealing.triple1.c)

omit [DecidableEq F] in
theorem secret_sigma : dealing.sigma.secret = dealing.triple0.a.secret * dealing.key.secret := by
  simp only [sigma, alpha, beta, secret_sub, secret_add, secret_smul,
    dealing.triple1.product]
  ring

variable (curve : Curve F G) (participant : Participant)

/-- What a participant runs presigning with. -/
noncomputable def presignArguments : PresignArguments F G where
  triple0 := dealing.triple0.output curve participant
  triple1 := dealing.triple1.output curve participant
  keygenOut := {
    privateShare := dealing.key.share participant.scalar
    publicKey := dealing.key.secret • curve.generator }
  threshold := dealing.threshold

/-- The point with the inverse of `k` as its logarithm. -/
noncomputable def bigR : G :=
  dealing.triple0.c.secret⁻¹ • dealing.triple0.b.secret • curve.generator

/-- The participant's presignature. -/
noncomputable def presignature : PresignOutput F G where
  bigR := dealing.bigR curve
  k := dealing.triple0.a.share participant.scalar
  sigma := dealing.sigma.share participant.scalar

variable (list : ParticipantList) (participant : Participant)

/-- What a participant sends in a run where everybody follows the protocol. -/
noncomputable def messages : List (Outgoing (PresignMessage F)) :=
  let lambda := list.weight participant
  [{ recipient := .everyone
     header := header 0
     payload := .e (lambda * dealing.triple0.c.share participant.scalar) },
   { recipient := .everyone
     header := header 1
     payload := .alphaBeta (lambda * dealing.alpha.share participant.scalar)
      (lambda * dealing.beta.share participant.scalar) }]

noncomputable def presignProtocol : PresignProtocol F G where
  participants := list
  me := participant
  args := dealing.presignArguments curve participant

end Definitions

end Dealing

/-! ### Presigning where everybody follows the protocol -/

theorem PresignProtocol.addShares_eq_ok {e : F} {messages : List (Participant × F)}
    (hmessages : ∀ message ∈ messages, message.2 ≠ 0) :
    addShares e messages = .ok (e + (messages.map fun message ↦ message.2).sum) := by
  induction messages generalizing e with
  | nil => simp [addShares]
  | cons _ _ ih =>
    rw [List.forall_mem_cons] at hmessages
    rw [addShares, require_pos hmessages.1, ok_bind, ih hmessages.2, List.map_cons, List.sum_cons,
      add_assoc]

namespace Dealing

variable [DecidableEq G] (dealing : Dealing F) (curve : Curve F G)
  {list : ParticipantList} {me : Participant} (hlarge : LargeField F)
  (hthreshold : dealing.threshold.value ≤ list.len) (hme : list.contains me = true)

include hlarge hthreshold hme

/-- The shares of `e` add up. -/
theorem computeE_eq_ok {gathered : List (Participant × F)}
    (hgathered : gathered.Perm ((list.others me).map fun sender ↦
      (sender, list.weight sender * dealing.triple0.c.share sender.scalar)))
    (hshares : ∀ sender, list.contains sender = true →
      dealing.triple0.c.share sender.scalar ≠ 0) :
    (dealing.presignProtocol curve list me).computeE curve
      (list.weight me * dealing.triple0.c.share me.scalar) gathered =
        .ok dealing.triple0.c.secret := by
  have hnonzero : ∀ message ∈ gathered, message.2 ≠ 0 := by
    intro _ hmessage
    obtain ⟨sender, hsender, rfl⟩ := List.mem_map.mp (hgathered.mem_iff.mp hmessage)
    have hmember := (mem_others.mp hsender).1
    exact mul_ne_zero (weight_ne_zero hlarge hmember) (hshares sender hmember)
  have hsum := add_sum_gathered hgathered hme fun share ↦ share
  rw [sum_weight_mul_share hlarge _ hthreshold] at hsum
  have hcheck : (dealing.presignProtocol curve list me).args.triple0.2.bigC =
      dealing.triple0.c.secret • curve.generator := rfl
  rw [PresignProtocol.computeE, PresignProtocol.addShares_eq_ok hnonzero, hsum, ok_bind,
    require_pos hcheck, ok_bind, pure_eq]

/-- The shares of `alpha` and `beta` add up, and the presignature is computed from them. -/
theorem computeOutput_eq_ok {gathered}
    (hgathered : gathered.Perm ((list.others me).map fun sender ↦
      (sender, list.weight sender * dealing.alpha.share sender.scalar,
        list.weight sender * dealing.beta.share sender.scalar))) (he : dealing.triple0.c.secret ≠ 0)
    :
    (dealing.presignProtocol curve list me).computeOutput curve dealing.triple0.c.secret
      (list.weight me * dealing.alpha.share me.scalar)
      (list.weight me * dealing.beta.share me.scalar) gathered =
        .ok (dealing.presignature curve me) := by
  have halpha := foldl_gathered hlarge hthreshold hme dealing.alpha hgathered Prod.fst fun _ ↦ rfl
  have hbeta := foldl_gathered hlarge hthreshold hme dealing.beta hgathered Prod.snd fun _ ↦ rfl
  have hchecks : dealing.alpha.secret • curve.generator =
        dealing.triple0.a.secret • curve.generator + dealing.triple1.a.secret • curve.generator ∧
      dealing.beta.secret • curve.generator =
        dealing.key.secret • curve.generator + dealing.triple1.b.secret • curve.generator := by
    simp only [alpha, beta, secret_add, add_smul, and_self]
  unfold PresignProtocol.computeOutput
  simp only [halpha, hbeta, presignProtocol, presignArguments, Triple.output]
  rw [require_pos hchecks, ok_bind, require_pos he, ok_bind]
  simp [presignature, bigR, sigma]

/-! The rounds of a participant. -/

omit hlarge hthreshold hme in
theorem secondRound_eq (e : F) :
    (dealing.presignProtocol curve list me).secondRound curve (list.weight me) e = (do
      sendMany 1 (some (.alphaBeta (list.weight me * dealing.alpha.share me.scalar)
        (list.weight me * dealing.beta.share me.scalar)))
      (dealing.presignProtocol curve list me).openAlphaBeta curve e
        (list.weight me * dealing.alpha.share me.scalar)
        (list.weight me * dealing.beta.share me.scalar)) := by
  simp only [alpha, beta, share_add, mul_add]
  rfl

omit hthreshold in
/-- On any inbox a participant sends its share of `e`. -/
theorem reaches_openE (hlen : 2 ≤ list.len) (inbox : Inbox (PresignMessage F)) :
    ((dealing.presignProtocol curve list me).doPresign curve).Reaches inbox
      ((dealing.messages list me).take 1)
      ((dealing.presignProtocol curve list me).openE curve (list.weight me)
        (list.weight me * dealing.triple0.c.share me.scalar)) := by
  have hlambda := lagrange_eq_weight hlarge hlen hme
  exact (Session.Reaches.lift hlambda).next (reaches_send _ _ _ inbox).bind

variable {inbox : Inbox (PresignMessage F)}

/-- With the shares of `e` it sends its shares of `alpha` and `beta`. -/
theorem openE_reaches
    (hinbox : (inbox (header 0)).Perm (arrivals list (dealing.messages list) me (header 0)))
    (hshares : ∀ sender, list.contains sender = true → dealing.triple0.c.share sender.scalar ≠ 0) :
    ((dealing.presignProtocol curve list me).openE curve (list.weight me)
        (list.weight me * dealing.triple0.c.share me.scalar)).Reaches inbox
      ((dealing.messages list me).drop 1)
      ((dealing.presignProtocol curve list me).openAlphaBeta curve dealing.triple0.c.secret
        (list.weight me * dealing.alpha.share me.scalar)
        (list.weight me * dealing.beta.share me.scalar)) := by
  rw [arrivals_of_one fun sender _ ↦ rfl] at hinbox
  obtain ⟨_, hgathered, hrecv⟩ := reaches_recvFromOthers PresignMessage.toE
    (fun sender ↦ list.weight sender * dealing.triple0.c.share sender.scalar) hinbox
    fun sender _ ↦ rfl
  have he := dealing.computeE_eq_ok curve hlarge hthreshold hme hgathered hshares
  refine hrecv.next ((Session.Reaches.lift he).next ?_)
  rw [dealing.secondRound_eq]
  exact (reaches_send _ _ _ inbox).bind

/-- With the shares of `alpha` and `beta` it returns its presignature. -/
theorem openAlphaBeta_reaches
    (hinbox : (inbox (header 1)).Perm (arrivals list (dealing.messages list) me (header 1)))
    (he : dealing.triple0.c.secret ≠ 0) :
    ((dealing.presignProtocol curve list me).openAlphaBeta curve dealing.triple0.c.secret
        (list.weight me * dealing.alpha.share me.scalar)
        (list.weight me * dealing.beta.share me.scalar)).Reaches inbox []
      (pure (dealing.presignature curve me)) := by
  rw [arrivals_of_one fun sender _ ↦ rfl] at hinbox
  obtain ⟨_, hgathered, hrecv⟩ := reaches_recvFromOthers PresignMessage.toAlphaBeta
    (fun sender ↦ (list.weight sender * dealing.alpha.share sender.scalar,
      list.weight sender * dealing.beta.share sender.scalar)) hinbox fun sender _ ↦ rfl
  have houtput := dealing.computeOutput_eq_ok curve hlarge hthreshold hme hgathered he
  exact hrecv.next (Session.Reaches.lift houtput)

end Dealing

namespace PresignProtocol

variable [DecidableEq G] (curve : Curve F G)
  (protocol : PresignProtocol F G)

theorem emits_openAlphaBeta (e alphaI betaI : F) :
    (protocol.openAlphaBeta curve e alphaI betaI).Emits fun _ ↦ False :=
  (emits_recvFromOthers _ _ _ _).bind fun _ ↦ Session.Emits.lift _

theorem emits_openE (lambda eI : F) :
    (protocol.openE curve lambda eI).Emits fun message ↦ message.header = header 1 := by
  refine (emits_recvFromOthers _ _ _ _).bind fun _ ↦ (Session.Emits.lift _).bind fun e ↦ ?_
  refine (emits_send (fun _ ↦ rfl) _).bind fun _ ↦ ?_
  exact (protocol.emits_openAlphaBeta curve _ _ _).mono fun _ hfalse ↦ hfalse.elim

end PresignProtocol

section Presigned

variable [DecidableEq G] (dealing : Dealing F) (curve : Curve F G)
  {list : ParticipantList} (hlarge : LargeField F) (hlen : 2 ≤ list.len)
  (hthreshold : dealing.threshold.value ≤ list.len)
  (hshares : ∀ sender, list.contains sender = true → dealing.triple0.c.share sender.scalar ≠ 0)

include hlarge hlen hthreshold hshares

theorem keeps_doPresign :
    Keeps list (fun participant ↦ (dealing.presignProtocol curve list participant).doPresign curve)
      MessageHeader.waitpoint (dealing.messages list) := by
  refine keeps_of_progress fun me hme inbox step hinbox ↦ ?_
  have hfirst := dealing.reaches_openE curve hlarge hme hlen inbox
  rcases step with _ | step
  · refine ⟨_, _, _, hfirst, (List.take_append_drop 1 _).symm, ?_, ?_⟩
    · refine (PresignProtocol.emits_openE curve _ _ _).mono fun message hheader ↦ ?_
      rw [hheader]
      exact Nat.one_pos
    · intro _ hmessage
      rw [List.mem_singleton.mp hmessage]
      exact Nat.one_pos
  · have hsecond := dealing.openE_reaches curve hlarge hthreshold hme
      (hinbox (header 0) (Nat.succ_pos step)) hshares
    refine ⟨_, [], _, hfirst.trans hsecond, rfl, ?_, by simp⟩
    exact (PresignProtocol.emits_openAlphaBeta curve _ _ _ _).mono fun _ hfalse ↦ hfalse.elim

/-- Everybody returns its presignature. -/
theorem presigned (he : dealing.triple0.c.secret ≠ 0) :
    AllReturn list
      (fun participant ↦ (dealing.presignProtocol curve list participant).doPresign curve)
      (dealing.presignature curve) := by
  refine (keeps_doPresign dealing curve hlarge hlen hthreshold hshares).allReturn ?_
  intro _ hme inbox hinbox
  have hfirst := dealing.reaches_openE curve hlarge hme hlen inbox
  have hsecond := dealing.openE_reaches curve hlarge hthreshold hme (hinbox (header 0)) hshares
  have hlast := dealing.openAlphaBeta_reaches curve hlarge hthreshold hme (hinbox (header 1)) he
  exact ((hfirst.trans hsecond).trans hlast).returned

end Presigned

/-! ### Signing where everybody follows the protocol -/

/-- Presignatures given by a shared nonce and its shared product with the key. -/
structure Signing (F G : Type) [Field F] where
  threshold : ReconstructionLowerBound
  nonce : Sharing F threshold.value
  sigma : Sharing F threshold.value
  bigR : G
  publicKey : G
  msgHash : F
  coordinator : Participant

namespace Signing

variable (signing : Signing F G) (curve : SigningCurve F G)

noncomputable def presignature (participant : Participant) :
    RerandomizedPresignOutput F G where
  bigR := signing.bigR
  k := signing.nonce.share participant.scalar
  sigma := signing.sigma.share participant.scalar

noncomputable def signProtocol (list : ParticipantList) (participant : Participant) :
    SignProtocol F G where
  participants := list
  coordinator := signing.coordinator
  me := participant
  publicKey := signing.publicKey
  presignature := signing.presignature participant
  msgHash := signing.msgHash

/-- The sharing of the scalar of the signature. -/
noncomputable def s : Sharing F signing.threshold.value :=
  signing.msgHash • signing.nonce + curve.xCoordinate signing.bigR • signing.sigma

variable {list : ParticipantList} {me : Participant} (hlarge : LargeField F)
  (hlen : 2 ≤ list.len)

include hlarge hlen

theorem computeSignatureShare_eq_ok (hme : list.contains me = true) :
    computeSignatureShare curve.toCurve (signing.signProtocol list me) =
      .ok (list.weight me * (signing.s curve).share me.scalar) := by
  have hlambda := lagrange_eq_weight hlarge hlen hme
  have hshare : signing.msgHash * (list.weight me * signing.nonce.share me.scalar) +
      curve.xCoordinate signing.bigR * (list.weight me * signing.sigma.share me.scalar) =
        list.weight me * (signing.s curve).share me.scalar := by
    simp only [s, share_add, share_smul]
    ring
  rw [computeSignatureShare, ← hshare]
  simp only [signProtocol, hlambda, ok_bind, pure_eq]
  rfl

/-- The coordinator's normalised signature. -/
noncomputable def signature : Signature F G where
  bigR := signing.bigR
  s := curve.normalize (signing.s curve).secret

/-- The coordinator returns the signature, if it verifies. -/
theorem signed (hthreshold : signing.threshold.value ≤ list.len)
    (hcoordinator : list.contains signing.coordinator = true)
    (hverify : (signing.signature curve).verify curve signing.publicKey signing.msgHash = true) :
    AllReturn list (fun participant ↦ (signing.signProtocol list participant).doSign curve)
      (fun participant ↦
        if participant = signing.coordinator then some (signing.signature curve) else none) := by
  refine allReturn_oneRound hcoordinator
    (fun me hme ↦ signing.computeSignatureShare_eq_ok curve hlarge hlen hme)
    fun gathered hgathered ↦ ?_
  have hsum := foldl_gathered hlarge hthreshold hcoordinator (signing.s curve) hgathered
    (fun share ↦ share) fun _ ↦ rfl
  unfold SignProtocol.computeSignature
  simp only [hsum]
  exact bind_eq_ok.mpr ⟨(), require_pos hverify, rfl⟩

end Signing

/-! ### From the shares to a signature -/

namespace Dealing

/-- What signing starts from after a rerandomisation by `delta`. -/
noncomputable def signing (dealing : Dealing F) (curve : Curve F G)
    (tweak delta msgHash : F) (coordinator : Participant) : Signing F G where
  threshold := dealing.threshold
  nonce := delta⁻¹ • dealing.triple0.a
  sigma := delta⁻¹ • (dealing.sigma + tweak • dealing.triple0.a)
  bigR := delta • dealing.bigR curve
  publicKey := deriveVerifyingKey curve tweak (dealing.key.secret • curve.generator)
  msgHash
  coordinator

variable (dealing : Dealing F) (curve : SigningCurve F G)
  {tweak delta msgHash : F} {coordinator : Participant}

omit [DecidableEq F] in
/-- The signing equation. -/
theorem secret_s :
    ((dealing.signing curve.toCurve tweak delta msgHash coordinator).s curve).secret =
      dealing.triple0.a.secret * delta⁻¹ *
        (msgHash + curve.xCoordinate (delta • dealing.bigR curve.toCurve) *
          (dealing.key.secret + tweak)) := by
  change (msgHash • delta⁻¹ • dealing.triple0.a +
    curve.xCoordinate (delta • dealing.bigR curve.toCurve) •
      delta⁻¹ • (dealing.sigma + tweak • dealing.triple0.a)).secret = _
  simp only [secret_add, secret_smul, secret_sigma]
  ring

omit [DecidableEq F] in
/-- The nonce belongs to the point of the signature. -/
theorem nonce_smul_bigR (he : dealing.triple0.c.secret ≠ 0) (hdelta : delta ≠ 0) :
    (dealing.triple0.a.secret * delta⁻¹) • delta • dealing.bigR curve.toCurve =
      curve.generator := by
  have hone : dealing.triple0.a.secret * delta⁻¹ * delta * dealing.triple0.c.secret⁻¹ *
      dealing.triple0.b.secret = 1 := by
    field_simp
    exact dealing.triple0.product.symm
  rw [bigR, smul_smul, smul_smul, smul_smul, hone, one_smul]

theorem verify_signature (coordinator : Participant) (he : dealing.triple0.c.secret ≠ 0)
    (hdelta : delta ≠ 0)
    (hr : curve.xCoordinate (delta • dealing.bigR curve.toCurve) ≠ 0)
    (hs : dealing.triple0.a.secret * delta⁻¹ *
      (msgHash + curve.xCoordinate (delta • dealing.bigR curve.toCurve) *
        (dealing.key.secret + tweak)) ≠ 0) :
    ((dealing.signing curve.toCurve tweak delta msgHash coordinator).signature curve).verify curve
      (deriveVerifyingKey curve.toCurve tweak (dealing.key.secret • curve.generator)) msgHash =
        true := by
  have hkey : deriveVerifyingKey curve.toCurve tweak (dealing.key.secret • curve.generator) =
      (dealing.key.secret + tweak) • curve.generator := (add_smul ..).symm
  rw [← secret_s] at hs
  rw [hkey]
  exact Signature.verify_normalized curve (dealing.nonce_smul_bigR curve he hdelta)
    (dealing.secret_s curve) hr hs

theorem rerandomizePresign_eq_ok [DecidableEq G] {args}
    (hargs : args.bigR = dealing.bigR curve.toCurve)
    (hrandomness : curve.deriveRandomness args = some delta) (hdelta : delta ≠ 0)
    (participant : Participant) :
    rerandomizePresign curve.toCurve (dealing.presignature curve.toCurve participant) args =
      .ok ((dealing.signing curve.toCurve args.tweak delta msgHash coordinator).presignature
        participant) := by
  have hfactor : rerandomizationFactor curve.toCurve (dealing.bigR curve.toCurve) args =
      .ok (delta, delta⁻¹) := by
    simp [rerandomizationFactor, require_pos hargs.symm, hrandomness, okOr, require_pos hdelta]
  unfold rerandomizePresign presignature Signing.presignature signing
  simp only [hfactor, ok_bind, share_smul, share_add, pure_eq, mul_comm]

omit [DecidableEq F] in
theorem presign_eq_ok (curve : Curve F G) {participants list} (hlist : new participants = some list)
    (htwo : 2 ≤ participants.length) (henough : dealing.threshold.value ≤ participants.length) {me}
    (hme : me ∈ participants) :
    presign participants me (dealing.presignArguments curve me) =
      .ok (dealing.presignProtocol curve list me) := by
  have hcontains := (contains_of_new hlist me).mpr hme
  have hmatch : (dealing.presignArguments curve me).threshold =
        (dealing.presignArguments curve me).triple0.2.threshold ∧
      (dealing.presignArguments curve me).threshold =
        (dealing.presignArguments curve me).triple1.2.threshold := ⟨rfl, rfl⟩
  have hthreshold : (dealing.presignArguments curve me).threshold.value ≤ participants.length :=
    henough
  simp only [presign, requireTwo, requireDistinct, requireMember, hlist, okOr, ok_bind,
    require_pos htwo, require_pos hthreshold, require_pos hmatch, require_pos hcontains, pure_eq]
  rfl

end Dealing

omit [DecidableEq F] [AddCommGroup G] [Module F G] in
theorem Signing.sign_eq_ok (signing : Signing F G) {participants list}
    (hlist : new participants = some list) (htwo : 2 ≤ participants.length)
    (henough : signing.threshold.value ≤ participants.length)
    (hcoordinator : signing.coordinator ∈ participants) {me} (hme : me ∈ participants) :
    sign participants signing.coordinator signing.threshold me signing.publicKey
      (signing.presignature me) signing.msgHash = .ok (signing.signProtocol list me) := by
  have hcontains := contains_of_new hlist
  rw [← len_of_new hlist] at henough
  simp only [sign, requireTwo, requireDistinct, requireMember, hlist, okOr, ok_bind,
    require_pos htwo, require_pos ((hcontains me).mpr hme),
    require_pos ((hcontains signing.coordinator).mpr hcoordinator), require_pos henough, pure_eq]
  rfl

/-- Presigning, rerandomisation and signing by honest participants. No constructor and no run
fails, and the coordinator returns a signature with a low scalar that verifies under the tweaked
key. -/
theorem signature_of_honest_signers [DecidableEq G] (curve : SigningCurve F G)
    (hlarge : LargeField F) (dealing : Dealing F)
    {participants signers : List Participant} {list signerList : ParticipantList}
    (hlist : new participants = some list)
    (hsignerList : new signers = some signerList)
    (hsubset : signers ⊆ participants)
    (henough : dealing.threshold.value ≤ signers.length)
    (hshares : ∀ participant ∈ participants, dealing.triple0.c.share participant.scalar ≠ 0)
    (he : dealing.triple0.c.secret ≠ 0)
    {args : RerandomizationArguments F G} (hargs : args.bigR = dealing.bigR curve.toCurve)
    {delta : F} (hrandomness : curve.deriveRandomness args = some delta) (hdelta : delta ≠ 0)
    (msgHash : F) (hr : curve.xCoordinate (delta • dealing.bigR curve.toCurve) ≠ 0)
    (hs : dealing.triple0.a.secret * delta⁻¹ *
      (msgHash + curve.xCoordinate (delta • dealing.bigR curve.toCurve) *
        (dealing.key.secret + args.tweak)) ≠ 0)
    {coordinator : Participant} (hcoordinator : coordinator ∈ signers) :
    let publicKey :=
      deriveVerifyingKey curve.toCurve args.tweak (dealing.key.secret • curve.generator)
    ∃ (presigning : Participant → PresignProtocol F G)
      (presignatures : Participant → PresignOutput F G)
      (rerandomized : Participant → RerandomizedPresignOutput F G)
      (signing : Participant → SignProtocol F G) (signature : Signature F G),
      (∀ me ∈ participants,
        presign participants me (dealing.presignArguments curve.toCurve me) =
          .ok (presigning me)) ∧
      AllReturn list (fun me ↦ (presigning me).doPresign curve.toCurve) presignatures ∧
      (∀ me ∈ signers,
        rerandomizePresign curve.toCurve (presignatures me) args = .ok (rerandomized me)) ∧
      (∀ me ∈ signers,
        sign signers coordinator dealing.threshold me publicKey (rerandomized me) msgHash =
          .ok (signing me)) ∧
      AllReturn signerList (fun me ↦ (signing me).doSign curve)
        (fun me ↦ if me = coordinator then some signature else none) ∧
      curve.isHigh signature.s = false ∧ signature.verify curve publicKey msgHash = true := by
  intro publicKey
  have hmember := contains_of_new hlist
  have hsigner := contains_of_new hsignerList
  have hlen := len_of_new hlist
  have hsignerLen := len_of_new hsignerList
  have hnodup : signers.Nodup := by
    by_contra hduplicate
    rw [new_eq_none_iff.mpr hduplicate] at hsignerList
    cases hsignerList
  have htwo : 2 ≤ signers.length := dealing.two_le_threshold.trans henough
  have hfewer : signers.length ≤ participants.length := (hnodup.subperm hsubset).length_le
  have hverify := dealing.verify_signature curve coordinator he hdelta hr hs
  refine ⟨dealing.presignProtocol curve.toCurve list, dealing.presignature curve.toCurve,
    (dealing.signing curve.toCurve args.tweak delta msgHash coordinator).presignature,
    (dealing.signing curve.toCurve args.tweak delta msgHash coordinator).signProtocol signerList,
    (dealing.signing curve.toCurve args.tweak delta msgHash coordinator).signature curve,
    ?_, ?_, ?_, ?_, ?_, curve.isHigh_normalize _, hverify⟩
  · intro me hme
    exact dealing.presign_eq_ok curve.toCurve hlist (htwo.trans hfewer) (henough.trans hfewer) hme
  · refine presigned dealing curve.toCurve hlarge (by omega) (by omega) ?_ he
    intro sender hsender
    exact hshares sender ((hmember sender).mp hsender)
  · intro me _
    exact dealing.rerandomizePresign_eq_ok curve hargs hrandomness hdelta me
  · intro me hme
    exact (dealing.signing curve.toCurve args.tweak delta msgHash coordinator).sign_eq_ok
      hsignerList htwo henough hcoordinator hme
  · refine Signing.signed _ curve hlarge (by omega) ?_ ?_ hverify
    · exact (by omega : dealing.threshold.value ≤ signerList.len)
    · exact (hsigner coordinator).mpr hcoordinator

/-- The line through an intercept, as a sharing. -/
noncomputable def line (intercept : ℚ) : Sharing ℚ 2 :=
  ⟨Polynomial.X + Polynomial.C intercept, by
    rw [Polynomial.mem_degreeLT, Polynomial.degree_X_add_C]
    norm_num⟩

theorem share_line (intercept place : ℚ) : (line intercept).share place = place + intercept := by
  simp [line, share]

theorem secret_line (intercept : ℚ) : (line intercept).secret = intercept := by
  rw [secret, share_line, zero_add]

/-- The key 7 with the triples `2 * 3 = 6` and `1 * 5 = 5`. -/
noncomputable def rationalDealing : Dealing ℚ where
  threshold := { value := 2 }
  two_le_threshold := le_refl 2
  key := line 7
  triple0 := {
    a := line 2, b := line 3, c := line 6
    product := by norm_num [secret_line]
    participants := [0, 1] }
  triple1 := {
    a := line 1, b := line 5, c := line 5
    product := by norm_num [secret_line]
    participants := [0, 1] }

theorem secrets_rationalDealing :
    rationalDealing.key.secret = 7 ∧ rationalDealing.triple0.a.secret = 2 ∧
      rationalDealing.triple0.b.secret = 3 ∧ rationalDealing.triple0.c.secret = 6 :=
  ⟨secret_line 7, secret_line 2, secret_line 3, secret_line 6⟩

theorem bigR_rationalDealing : rationalDealing.bigR rationalCurve.toCurve = 1 / 2 := by
  norm_num [Dealing.bigR, secrets_rationalDealing, rationalCurve]

/-- Two participants sign for the rationals. -/
theorem signature_of_honest_signers_rational :
    ∃ (signing : Participant → SignProtocol ℚ ℚ) (signature : Signature ℚ ℚ),
      AllReturn { participants := [0, 1], sorted := by decide }
        (fun me ↦ (signing me).doSign rationalCurve)
        (fun me ↦ if me = 1 then some signature else none) ∧
      signature.verify rationalCurve 11 5 = true := by
  have hshares : ∀ participant ∈ ([0, 1] : List Participant),
      rationalDealing.triple0.c.share participant.scalar ≠ 0 := by
    intro participant _
    have hshare : rationalDealing.triple0.c.share participant.scalar = participant.scalar + 6 :=
      share_line 6 participant.scalar
    rw [hshare, Participant.scalar]
    positivity
  let args : RerandomizationArguments ℚ ℚ :=
    { pk := 7, tweak := 4, msgHash := [], bigR := 1 / 2
      participants := { participants := [0, 1], sorted := by decide }, entropy := [] }
  obtain ⟨-, -, -, signing, signature, -, -, -, -, hreturn, -, hverify⟩ :=
    @signature_of_honest_signers ℚ ℚ _ _ _ _ _ rationalCurve largeField_rat rationalDealing
      [0, 1] [1, 0] _ _ rfl rfl (by decide) (by decide) hshares
      (by norm_num [secrets_rationalDealing]) args bigR_rationalDealing.symm 2 rfl two_ne_zero 5
      (by
        rw [bigR_rationalDealing]
        norm_num [rationalCurve])
      (by
        rw [bigR_rationalDealing]
        norm_num [secrets_rationalDealing, rationalCurve, args])
      1 (by decide)
  have hkey : deriveVerifyingKey rationalCurve.toCurve args.tweak
      (rationalDealing.key.secret • rationalCurve.generator) = 11 := by
    norm_num [deriveVerifyingKey, secrets_rationalDealing, rationalCurve, args]
  rw [hkey] at hverify
  exact ⟨signing, signature, hreturn, hverify⟩

end NearMpc.Threshold.OtBasedEcdsa
