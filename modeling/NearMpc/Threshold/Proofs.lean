import NearMpc.Threshold.Polynomials

/-!
# Proofs of knowledge

The proofs that a discrete logarithm is known, and that two discrete logarithms are equal. Follows
`crypto/proofs/dlog.rs` and `crypto/proofs/dlogeq.rs`.

The identity element cannot be serialised, so every point that enters a transcript is checked; the
errors are those of the source. No step can panic: the functions return `Except`.

A proof of equal logarithms is accepted if it is honest, and two answers to one commitment give away
the logarithm (`proof_complete_and_speciallySound`).
-/

set_option autoImplicit false

namespace NearMpc.Threshold

/-- 32 bytes. -/
abbrev HashOutput := List UInt8

/-- 32 bytes. -/
abbrev Commitment := List UInt8

/-- 32 bytes. -/
abbrev Randomness := List UInt8

/-- What a transcript absorbs before the statement of a proof. -/
inductive TranscriptMessage where
  | group (name : String)
  | participants (list : List Participant)
  | threshold (value : ℕ)
  | confirmation (confirmations : List HashOutput)
  | fork (label : String) (participant : Participant)
deriving DecidableEq, Repr

abbrev Transcript := List TranscriptMessage

def Transcript.fork (transcript : Transcript) (label : String) (participant : Participant) :
    Transcript :=
  transcript ++ [.fork label participant]

/-- The vectors of bits of the oblivious transfers: as long as the security parameter. -/
abbrev BitVector := BitVec 128

/-- What triple generation uses of the curve and of the hash functions. -/
structure Primitives (F G : Type) where
  generator : G
  /-- The nonzero challenge for the points of a statement and of a commitment. -/
  challenge : Transcript → List G → F
  /-- The commitment to three lists of coefficients. -/
  commit : List G → List G → List G → Randomness → Commitment
  /-- The hash of the commitments of all participants. -/
  hashCommitments : List (Option Commitment) → HashOutput
  /-- The hash that decides on the roles of two participants. -/
  orderKey : ℕ → Participant → HashOutput
  /-- The hash of the batch random oblivious transfer. -/
  hashPoints : ℕ → G → G → G → BitVector
  /-- One bit of the expansion of a row. -/
  expandRow : HashOutput → BitVector → ℕ → Bool
  hashToScalar : ℕ → BitVector → F
  /-- The bit vectors and the scalars drawn from a seed. -/
  seedBits : List UInt8 → ℕ → BitVector
  seedScalars : List UInt8 → ℕ → F

variable {F G : Type} [Field F] [DecidableEq F] [AddCommGroup G]
  [Module F G] [DecidableEq G]

/-- The point can be serialised. -/
def requireSerializable (point : G) (failure : ProtocolError) : Except ProtocolError Unit :=
  if point = 0 then .error failure else .ok ()

namespace Dlog

structure Proof (F : Type) where
  e : F
  s : F
deriving DecidableEq, Repr

variable (primitives : Primitives F G) (transcript : Transcript) (statement : G)

def proveWithNonce (x nonce : F) : Except ProtocolError (Proof F) := do
  requireSerializable statement .pointSerialization
  let bigK := nonce • primitives.generator
  requireSerializable bigK .identityElement
  let e := primitives.challenge transcript [statement, bigK]
  return { e, s := nonce + e * x }

def verify (proof : Proof F) : Except ProtocolError Bool := do
  requireSerializable statement .pointSerialization
  let bigK := proof.s • primitives.generator - proof.e • statement
  requireSerializable bigK .identityElement
  return primitives.challenge transcript [statement, bigK] = proof.e

end Dlog

namespace Dlogeq

structure Proof (F : Type) where
  e : F
  s : F
deriving DecidableEq, Repr

/-- The logarithm of one point under the generator is that of another under a second generator. -/
structure Statement (G : Type) where
  public0 : G
  generator1 : G
  public1 : G

variable (primitives : Primitives F G) (transcript : Transcript)
  (statement : Statement G)

def Statement.encode : Except ProtocolError (List G) := do
  requireSerializable statement.public0 .pointSerialization
  requireSerializable statement.generator1 .pointSerialization
  requireSerializable statement.public1 .pointSerialization
  return [statement.public0, statement.generator1, statement.public1]

/-- The challenge for two commitments. -/
def challengeFor (bigK0 bigK1 : G) : Except ProtocolError F := do
  requireSerializable statement.generator1 .identityElement
  let encoded ← statement.encode
  requireSerializable bigK0 .identityElement
  requireSerializable bigK1 .identityElement
  return primitives.challenge transcript (encoded ++ [bigK0, bigK1])

def proveWithNonce (x nonce : F) : Except ProtocolError (Proof F) := do
  let e ← challengeFor primitives transcript statement (nonce • primitives.generator)
    (nonce • statement.generator1)
  return { e, s := nonce + e * x }

variable (proof : Proof F)

def verify : Except ProtocolError Bool := do
  let e ← challengeFor primitives transcript statement
    (proof.s • primitives.generator - proof.e • statement.public0)
    (proof.s • statement.generator1 - proof.e • statement.public1)
  return e = proof.e

/-! ### Completeness and special soundness -/

/-- The scalar is the logarithm of both points of the statement. -/
def Statement.Holds (x : F) : Prop :=
  statement.public0 = x • primitives.generator ∧ statement.public1 = x • statement.generator1

/-- No point of the statement is the identity. -/
def Statement.Nonidentity : Prop :=
  statement.public0 ≠ 0 ∧ statement.generator1 ≠ 0 ∧ statement.public1 ≠ 0

/-- The commitments that the verifier recomputes from a proof. -/
def commitments : G × G :=
  (proof.s • primitives.generator - proof.e • statement.public0,
    proof.s • statement.generator1 - proof.e • statement.public1)

/-- The verifier recomputes these commitments from the proof and accepts it, for some transcript and
some challenges. -/
def Accepted (bigK : G × G) : Prop :=
  commitments primitives statement proof = bigK ∧
    ∃ challenge transcript,
      verify { primitives with challenge } transcript statement proof = .ok true

variable {primitives} {transcript} {statement} {proof}

omit [Field F] [DecidableEq F] [Module F G] in
theorem challengeFor_eq_ok {bigK0 bigK1 e} :
    challengeFor primitives transcript statement bigK0 bigK1 = .ok e ↔
      statement.Nonidentity ∧ bigK0 ≠ 0 ∧ bigK1 ≠ 0 ∧ primitives.challenge transcript
        [statement.public0, statement.generator1, statement.public1, bigK0, bigK1] = e := by
  simp only [challengeFor, Statement.encode, requireSerializable, Statement.Nonidentity, bind,
    Except.bind, pure, Except.pure]
  split_ifs <;> simp_all

/-- The verifier accepts exactly if the transcript and the recomputed commitments lead to the
challenge of the proof. -/
theorem verify_eq_true_iff : verify primitives transcript statement proof = .ok true ↔
    statement.Nonidentity ∧ (commitments primitives statement proof).1 ≠ 0 ∧
      (commitments primitives statement proof).2 ≠ 0 ∧ primitives.challenge transcript
        [statement.public0, statement.generator1, statement.public1,
          (commitments primitives statement proof).1,
          (commitments primitives statement proof).2] = proof.e := by
  rw [← challengeFor_eq_ok]
  unfold verify commitments
  cases challengeFor primitives transcript statement
    (proof.s • primitives.generator - proof.e • statement.public0)
    (proof.s • statement.generator1 - proof.e • statement.public1) <;>
  simp [bind, Except.bind, pure, Except.pure]

omit [DecidableEq F] [DecidableEq G] in
/-- The verifier recomputes the commitments of the prover. -/
theorem Statement.Holds.commitments_eq {x} (hx : statement.Holds primitives x) (nonce e : F) :
    commitments primitives statement { e, s := nonce + e * x } =
      (nonce • primitives.generator, nonce • statement.generator1) := by
  simp only [commitments, hx.1, hx.2, add_smul, mul_smul, add_sub_cancel_right]

theorem verify_proveWithNonce {x nonce} (hpoints : statement.Nonidentity)
    (hx : statement.Holds primitives x) (hnonce : nonce ≠ 0) :
    ∃ proof, proveWithNonce primitives transcript statement x nonce = .ok proof ∧
      verify primitives transcript statement proof = .ok true := by
  have hgenerator : primitives.generator ≠ 0 := by
    intro hzero
    exact hpoints.1 (by rw [hx.1, hzero, smul_zero])
  have hbigK0 : nonce • primitives.generator ≠ 0 := smul_ne_zero hnonce hgenerator
  have hbigK1 : nonce • statement.generator1 ≠ 0 := smul_ne_zero hnonce hpoints.2.1
  refine ⟨_, by rw [proveWithNonce, challengeFor_eq_ok.mpr ⟨hpoints, hbigK0, hbigK1, rfl⟩]; rfl, ?_⟩
  rw [verify_eq_true_iff, hx.commitments_eq]
  exact ⟨hpoints, hbigK0, hbigK1, rfl⟩

omit [DecidableEq F] [DecidableEq G] in
/-- Two answers to one commitment give away the logarithm. -/
theorem holds_of_commitments_eq {first second} (he : first.e ≠ second.e)
    (hsame : commitments primitives statement first = commitments primitives statement second) :
    statement.Holds primitives ((first.s - second.s) / (first.e - second.e)) := by
  -- in each of the two groups `s • base - e • value = s' • base - e' • value`
  have hextract {base value : G} (heq : first.s • base - first.e • value =
      second.s • base - second.e • value) :
      value = ((first.s - second.s) / (first.e - second.e)) • base := by
    have hdifference : (first.s - second.s) • base = (first.e - second.e) • value := by
      rw [sub_smul, sub_smul, sub_eq_sub_iff_sub_eq_sub.mp heq]
    rw [div_eq_inv_mul, mul_smul, hdifference, inv_smul_smul₀ (sub_ne_zero.mpr he)]
  exact ⟨hextract (congrArg Prod.fst hsame), hextract (congrArg Prod.snd hsame)⟩

/-- A true statement is proved and verified. The verifier accepts exactly if the recomputed
commitments lead to the challenge of the proof. Two proofs with different challenges and one pair of
commitments give away a witness, in particular if both are accepted, and a statement about two
different logarithms leaves one challenge per commitment for which a response is accepted. -/
theorem proof_complete_and_speciallySound (primitives : Primitives F G)
    (hgenerator : primitives.generator ≠ 0) (statement : Statement G) :
    (∀ transcript x nonce, statement.Nonidentity → statement.Holds primitives x → nonce ≠ 0 →
      ∃ proof, proveWithNonce primitives transcript statement x nonce = .ok proof ∧
        verify primitives transcript statement proof = .ok true) ∧
    (∀ transcript proof, verify primitives transcript statement proof = .ok true ↔
      statement.Nonidentity ∧ (commitments primitives statement proof).1 ≠ 0 ∧
        (commitments primitives statement proof).2 ≠ 0 ∧ primitives.challenge transcript
          [statement.public0, statement.generator1, statement.public1,
            (commitments primitives statement proof).1,
            (commitments primitives statement proof).2] = proof.e) ∧
    (∀ first second : Proof F, first.e ≠ second.e →
      commitments primitives statement first = commitments primitives statement second →
      statement.Holds primitives ((first.s - second.s) / (first.e - second.e))) ∧
    (∀ bigK first second, Accepted primitives statement first bigK →
      Accepted primitives statement second bigK → first.e ≠ second.e →
      statement.Holds primitives ((first.s - second.s) / (first.e - second.e))) ∧
    ∀ log0 log1 : F, statement.public0 = log0 • primitives.generator →
      statement.public1 = log1 • statement.generator1 → log0 ≠ log1 →
      ∀ bigK e e', (∃ s, Accepted primitives statement { e, s } bigK) →
        (∃ s, Accepted primitives statement { e := e', s } bigK) → e = e' := by
  refine ⟨fun _ _ _ ↦ verify_proveWithNonce, fun _ _ ↦ verify_eq_true_iff,
    fun _ _ ↦ holds_of_commitments_eq, ?_, ?_⟩
  · rintro bigK first second ⟨hfirst, -⟩ ⟨hsecond, -⟩ he
    exact holds_of_commitments_eq he (hfirst.trans hsecond.symm)
  rintro log0 log1 hlog0 hlog1 hne bigK e e' ⟨s, hs, _, _, hverify⟩ ⟨s', hs', -⟩
  by_contra he
  have hgenerator1 : statement.generator1 ≠ 0 := (verify_eq_true_iff.mp hverify).1.2.1
  have hx := holds_of_commitments_eq he (hs.trans hs'.symm)
  have h0 := smul_left_injective F hgenerator (hlog0.symm.trans hx.1)
  have h1 := smul_left_injective F hgenerator1 (hlog1.symm.trans hx.2)
  exact hne (h0.trans h1.symm)

/-- The prover of logarithm one over the field of three elements. -/
theorem proof_complete_and_speciallySound_one :
    ∃ primitives : Primitives (ZMod 3) (ZMod 3), primitives.generator ≠ 0 ∧
      (∃ proof, proveWithNonce primitives [] ⟨1, 1, 1⟩ 1 1 = .ok proof ∧
        verify primitives [] ⟨1, 1, 1⟩ proof = .ok true) ∧
      Accepted primitives ⟨1, 1, 1⟩ ⟨1, 2⟩ (1, 1) ∧ Accepted primitives ⟨1, 1, 1⟩ ⟨2, 0⟩ (1, 1) ∧
      Statement.Holds primitives ⟨1, 1, 1⟩ ((2 - 0) / (1 - 2)) ∧
      Accepted primitives ⟨1, 1, 2⟩ ⟨1, 0⟩ (2, 1) ∧
      ∀ e, (∃ s, Accepted primitives ⟨1, 1, 2⟩ { e, s } (2, 1)) → e = 1 := by
  let primitives : Primitives (ZMod 3) (ZMod 3) := ⟨1, fun _ _ ↦ 1, fun _ _ _ _ ↦ [], fun _ ↦ [],
    fun _ _ ↦ [], fun _ _ _ _ ↦ 0, fun _ _ _ ↦ false, fun _ _ ↦ 0, fun _ _ ↦ 0, fun _ _ ↦ 0⟩
  have htrue := proof_complete_and_speciallySound primitives (by decide) ⟨1, 1, 1⟩
  have hfalse := proof_complete_and_speciallySound primitives (by decide) ⟨1, 1, 2⟩
  have hfirst : Accepted primitives ⟨1, 1, 1⟩ ⟨1, 2⟩ (1, 1) :=
    ⟨by decide, fun _ _ ↦ 1, [], by decide⟩
  have hsecond : Accepted primitives ⟨1, 1, 1⟩ ⟨2, 0⟩ (1, 1) :=
    ⟨by decide, fun _ _ ↦ 2, [], by decide⟩
  have hanswer : Accepted primitives ⟨1, 1, 2⟩ ⟨1, 0⟩ (2, 1) :=
    ⟨by decide, fun _ _ ↦ 1, [], by decide⟩
  refine ⟨primitives, by decide, htrue.1 [] 1 1 ⟨by decide, by decide, by decide⟩
    ⟨by decide, by decide⟩ (by decide), hfirst, hsecond,
    htrue.2.2.2.1 _ _ _ hfirst hsecond (by decide), hanswer, fun e he ↦ ?_⟩
  exact hfalse.2.2.2.2 1 2 (by decide) (by decide) (by decide) _ e 1 he ⟨0, hanswer⟩

end Dlogeq

end NearMpc.Threshold
