import NearMpc.Threshold.Constructors
import NearMpc.Threshold.OtSigning

/-!
# Runs of confidential key derivation

The protocol that `ckd` constructs: everybody sends the coordinator its weighted share of the key,
blinded for the holder of the app key, and the coordinator adds them up. Follows
`confidential_key_derivation/protocol.rs` and `mod.rs`; the curve and its hash are parameters.

In a run of at least as many honest participants as the threshold the blinding cancels when the
output is unmasked, and what remains is the master key's multiple of the hash
(`unmask_of_honest_participants`).
-/

set_option autoImplicit false

namespace NearMpc.Threshold.Ckd

open Library Library.Outcome ParticipantList SharedChannel

variable {F G Key : Type} [Field F] [DecidableEq F] [AddCommGroup G]
  [Module F G]

/-- What the protocol uses of the curve. -/
structure Suite (G Key : Type) where
  generator : G
  toCompressed : Key → List UInt8
  hashToCurve : List UInt8 → G

def hashAppIdWithPk (suite : Suite G Key) (pk : Key) (appId : List UInt8) : G :=
  suite.hashToCurve (suite.toCompressed pk ++ appId)

structure CKDOutput (G : Type) where
  bigY : G
  bigC : G

def CKDOutput.unmask (output : CKDOutput G) (secretScalar : F) : G :=
  output.bigC - secretScalar • output.bigY

section Protocol

variable (suite : Suite G Key) (protocol : CkdProtocol (KeygenOutput F Key) G)
  (y : F)

/-- The weighted share for the random scalar `y`. -/
def computeSignatureShare : Outcome ProtocolError (CKDOutput G) := do
  let hashPoint := hashAppIdWithPk suite protocol.keyPair.publicKey protocol.appId
  let bigC := protocol.keyPair.privateShare • hashPoint + y • protocol.appPk
  let lambda : F ← protocol.participants.lagrange protocol.me
  return { bigY := lambda • y • suite.generator, bigC := lambda • bigC }

/-- The coordinator's sums. -/
def addOutputs (own : CKDOutput G) (messages : List (Participant × CKDOutput G)) :
    CKDOutput G where
  bigY := messages.foldl (fun sum message ↦ sum + message.2.bigY) own.bigY
  bigC := messages.foldl (fun sum message ↦ sum + message.2.bigC) own.bigC

def doCkdParticipant : Party (CKDOutput G) (Option (CKDOutput G)) := do
  let own ← computeSignatureShare suite protocol y
  sendPrivate 0 protocol.coordinator (some own)
  return none

def doCkdCoordinator : Party (CKDOutput G) (Option (CKDOutput G)) := do
  let own ← computeSignatureShare suite protocol y
  let messages ← recvFromOthers some 0 protocol.participants protocol.me
  return some (addOutputs own messages)

def runCkdProtocol : Party (CKDOutput G) (Option (CKDOutput G)) :=
  if protocol.me = protocol.coordinator then doCkdCoordinator suite protocol y
  else doCkdParticipant suite protocol y

end Protocol

/-! ### Honest runs -/

section Run

variable (suite : Suite G Key) {threshold : ℕ} (msk : Sharing F threshold)
  (list : ParticipantList) (hashPoint appPk : G) (y : Participant → F)

/-- The weighted share of a participant. -/
noncomputable def share (participant : Participant) : CKDOutput G where
  bigY := (list.weight participant : F) • y participant • suite.generator
  bigC := (list.weight participant : F) •
    (msk.share participant.scalar • hashPoint + y participant • appPk)

/-- The sums of the weighted shares. -/
noncomputable def total : CKDOutput G where
  bigY := ∑ participant ∈ list.members, (share suite msk list hashPoint appPk y participant).bigY
  bigC := ∑ participant ∈ list.members, (share suite msk list hashPoint appPk y participant).bigC

omit [DecidableEq F] in
/-- The blinding cancels. -/
theorem unmask_total (hlarge : LargeField F) (hthreshold : threshold ≤ list.len)
    (appSecret : F) :
    (total suite msk list hashPoint (appSecret • suite.generator) y).unmask appSecret =
      msk.secret • hashPoint := by
  rw [← sum_weight_mul_share hlarge msk hthreshold, Finset.sum_smul, CKDOutput.unmask, total,
    Finset.smul_sum, ← Finset.sum_sub_distrib]
  refine Finset.sum_congr rfl fun participant _ ↦ ?_
  simp only [share]
  module

end Run

/-- The coordinator's output, unmasked with the app's secret key, is the master key's multiple of
the hash, whoever takes part and whatever scalars they draw. -/
theorem unmask_of_honest_participants (suite : Suite G Key) (hlarge : LargeField F)
    {threshold : ℕ} (htwo : 2 ≤ threshold) (msk : Sharing F threshold) (publicKey : Key)
    {participants : List Participant} (hnodup : participants.Nodup)
    (henough : threshold ≤ participants.length) {coordinator : Participant}
    (hcoordinator : coordinator ∈ participants) (appId : List UInt8) (appSecret : F)
    (y : Participant → F) :
    ∃ (list : ParticipantList)
      (protocol : Participant → CkdProtocol (KeygenOutput F Key) G)
      (output : CKDOutput G),
      new participants = some list ∧
      (∀ me ∈ participants, ckd participants coordinator me
        { privateShare := msk.share me.scalar, publicKey } appId (appSecret • suite.generator) =
          .ok (protocol me)) ∧
      AllReturn list (fun me ↦ runCkdProtocol suite (protocol me) (y me))
        (fun me ↦ if me = coordinator then some output else none) ∧
      output.unmask appSecret = msk.secret • hashAppIdWithPk suite publicKey appId := by
  obtain ⟨list, hlist⟩ := Option.ne_none_iff_exists'.mp fun hnone ↦
    new_eq_none_iff.mp hnone hnodup
  have hcontains := contains_of_new hlist
  have hlen := len_of_new hlist
  let protocol (me : Participant) : CkdProtocol (KeygenOutput F Key) G :=
    { participants := list, coordinator, me, appId, appPk := appSecret • suite.generator
      keyPair := { privateShare := msk.share me.scalar, publicKey } }
  refine ⟨list, protocol, total suite msk list (hashAppIdWithPk suite publicKey appId)
    (appSecret • suite.generator) y, hlist, fun me hme ↦ ?_, ?_,
    unmask_total suite msk list _ y hlarge (hlen ▸ henough) appSecret⟩
  · simp only [ckd, requireTwo, requireDistinct, requireMember, hlist, okOr, ok_bind,
      require_pos (htwo.trans henough), require_pos ((hcontains me).mpr hme),
      require_pos ((hcontains coordinator).mpr hcoordinator)]
    rfl
  · have hmember := (hcontains coordinator).mpr hcoordinator
    have hshare (me : Participant) (hme : list.contains me = true) :
        computeSignatureShare suite (protocol me) (y me) = .ok (share suite msk list
          (hashAppIdWithPk suite publicKey appId) (appSecret • suite.generator) y me) := by
      have hlambda := lagrange_eq_weight hlarge (by omega) hme
      simp only [computeSignatureShare, protocol, hlambda, ok_bind]
      rfl
    have hround (me : Participant) : runCkdProtocol suite (protocol me) (y me) =
        oneRound list coordinator me (computeSignatureShare suite (protocol me) (y me))
          fun own messages ↦ .ok (addOutputs own messages) := rfl
    simp only [hround]
    refine allReturn_oneRound hmember hshare fun gathered hgathered ↦ ?_
    have hbigY := add_sum_gathered hgathered hmember CKDOutput.bigY
    have hbigC := add_sum_gathered hgathered hmember CKDOutput.bigC
    rw [addOutputs, foldl_add_eq, foldl_add_eq, hbigY, hbigC]
    rfl

/-- The key 7 on a line, derived by two participants over the rationals. -/
theorem unmask_of_honest_participants_rational :
    ∃ (suite : Suite ℚ Unit) (protocol : Participant → CkdProtocol (KeygenOutput ℚ Unit) ℚ)
      (output : CKDOutput ℚ),
      AllReturn { participants := [0, 1], sorted := by decide }
        (fun me ↦ runCkdProtocol suite (protocol me) me.scalar)
        (fun me ↦ if me = 1 then some output else none) ∧
      output.unmask (3 : ℚ) = 14 := by
  let suite : Suite ℚ Unit :=
    { generator := 1, toCompressed := fun _ ↦ [], hashToCurve := fun input ↦ input.length }
  obtain ⟨list, protocol, output, hlist, -, hreturn, hunmask⟩ := unmask_of_honest_participants
    suite largeField_rat le_rfl (OtBasedEcdsa.line 7) ()
    (by decide : ([1, 0] : List Participant).Nodup) le_rfl List.mem_cons_self [8, 9] 3
    Participant.scalar
  cases hlist
  refine ⟨suite, protocol, output, hreturn, hunmask.trans ?_⟩
  rw [OtBasedEcdsa.secret_line]
  norm_num [hashAppIdWithPk, suite]

end NearMpc.Threshold.Ckd
