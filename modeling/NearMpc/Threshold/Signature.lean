import NearMpc.Threshold.Ecdsa

/-!
# ECDSA signatures

The signature that the coordinator of a signing protocol returns, its normalisation and its
verification. Follows `Signature` of `ecdsa/mod.rs`.

A signature whose scalar solves the signing equation for the nonce behind its point verifies once it
is normalised (`verify_normalized`). Both schemes are shown to solve that equation.
-/

set_option autoImplicit false

namespace NearMpc.Threshold

variable {F G : Type} [Field F] [DecidableEq F] [AddCommGroup G]
  [Module F G] [DecidableEq G]

/-- A curve with what verification uses of it. -/
structure SigningCurve (F G : Type) [Field F] [AddCommGroup G]
    [Module F G] extends Curve F G where
  /-- The scalar is above half of the order. -/
  isHigh : F → Bool
  xCoordinate_neg : ∀ point, xCoordinate (-point) = xCoordinate point
  isHigh_neg : ∀ scalar, isHigh scalar = true → isHigh (-scalar) = false
  generator_ne_zero : generator ≠ 0

structure Signature (F G : Type) where
  bigR : G
  s : F
deriving DecidableEq, Repr

variable (curve : SigningCurve F G)

/-- The scalar or its inverse, whichever is not high. -/
def SigningCurve.normalize (s : F) : F :=
  if curve.isHigh s then -s else s

/-- Verifies a signature, and that its scalar has been normalised. -/
def Signature.verify (signature : Signature F G) (publicKey : G) (msgHash : F) :
    Bool :=
  let r := curve.xCoordinate signature.bigR
  if r = 0 ∨ signature.s = 0 then false
  else if curve.isHigh signature.s then false
  else
    let reproduced := (msgHash * signature.s⁻¹) • curve.generator +
      (r * signature.s⁻¹) • publicKey
    curve.xCoordinate reproduced = r

namespace SigningCurve

variable (curve : SigningCurve F G)

omit [DecidableEq F] [DecidableEq G] in
theorem isHigh_normalize (s : F) : curve.isHigh (curve.normalize s) = false := by
  unfold normalize
  split_ifs with hhigh
  · exact curve.isHigh_neg s hhigh
  · simpa using hhigh

omit [DecidableEq F] [DecidableEq G] in
theorem normalize_eq_or (s : F) : curve.normalize s = s ∨ curve.normalize s = -s := by
  unfold normalize
  split_ifs
  · exact Or.inr rfl
  · exact Or.inl rfl

end SigningCurve

omit [DecidableEq G] in
/-- A solution of the signing equation verifies once it is normalised. -/
theorem Signature.verify_normalized (curve : SigningCurve F G) {bigR nonce key msgHash s}
    (hbigR : nonce • bigR = curve.generator)
    (hequation : s = nonce * (msgHash + curve.xCoordinate bigR * key))
    (hr : curve.xCoordinate bigR ≠ 0) (hs : s ≠ 0) :
    Signature.verify curve { bigR, s := curve.normalize s } (key • curve.generator) msgHash =
      true := by
  have hnonzero : curve.normalize s ≠ 0 := by
    rcases curve.normalize_eq_or s with hnormalize | hnormalize
    · rwa [hnormalize]
    · rw [hnormalize]
      exact neg_ne_zero.mpr hs
  have hreproduced : ∀ t : F, (msgHash * t⁻¹) • curve.generator +
      (curve.xCoordinate bigR * t⁻¹) • key • curve.generator = (s * t⁻¹) • bigR := by
    intro _
    rw [← hbigR, smul_smul, smul_smul, smul_smul, ← add_smul, hequation]
    congr 1
    ring
  have hpoint : curve.xCoordinate ((s * (curve.normalize s)⁻¹) • bigR) =
      curve.xCoordinate bigR := by
    rcases curve.normalize_eq_or s with hnormalize | hnormalize
    · rw [hnormalize, mul_inv_cancel₀ hs, one_smul]
    · rw [hnormalize, inv_neg, mul_neg, mul_inv_cancel₀ hs, neg_smul, one_smul,
        curve.xCoordinate_neg]
  unfold Signature.verify
  simp [hr, hnonzero, curve.isHigh_normalize, hreproduced, hpoint]

/-- The rationals as a curve: a point has its absolute value as its x-coordinate, and the negative
scalars are high. -/
def rationalCurve : SigningCurve ℚ ℚ where
  generator := 1
  xCoordinate := fun point ↦ |point|
  fromRepr := fun _ ↦ none
  deriveRandomness := fun _ ↦ some 2
  isHigh := fun scalar ↦ scalar < 0
  xCoordinate_neg := abs_neg
  isHigh_neg := by
    intro scalar hhigh
    simp only [decide_eq_true_eq, decide_eq_false_iff_not, not_lt] at hhigh ⊢
    exact neg_nonneg.mpr hhigh.le
  generator_ne_zero := one_ne_zero

end NearMpc.Threshold
