import NearMpc.Threshold.Participants

/-!
# Polynomials and their commitments

Polynomials by their coefficients, lowest first, over the scalars and in the exponent. Follows
`crypto/polynomials.rs`. Both types drop the coefficients at the top that are zero, and neither can
be empty: that the last coefficient is not zero is a field of the type, so the degree and the
constant term always exist.

`Polynomial.formal` is the polynomial in the algebraic sense. Commitments are homomorphic
(`commitPolynomial_homomorphic`), whatever the lengths and the zeros at the top: what the source
computes on scalars and in the exponent is compared with sums, values and products of the formal
polynomials. Interpolation takes its Lagrange coefficients as a parameter.
-/

set_option autoImplicit false

open Polynomial

namespace NearMpc.Threshold

/-- Coefficients, lowest first; there is at least one, and the last one is not zero. -/
structure Polynomial (F : Type) [Zero F] where
  coefficients : List F
  ne_nil : coefficients ≠ []
  last_ne_zero : coefficients.getLast ne_nil ≠ 0

/-- The committed coefficients of a polynomial; the last one is not the identity. -/
structure PolynomialCommitment (G : Type) [Zero G] where
  coefficients : List G
  ne_nil : coefficients ≠ []
  last_ne_zero : coefficients.getLast ne_nil ≠ 0

/-! ### The last coefficient -/

section LastCoefficient

variable {Coefficient : Type} [Zero Coefficient] {coefficients : List Coefficient}

theorem getLast_rdropWhile_ne_zero [DecidableEq Coefficient]
    (hne : coefficients.rdropWhile (· = 0) ≠ []) :
    (coefficients.rdropWhile (· = 0)).getLast hne ≠ 0 := by
  simpa using List.rdropWhile_last_not (fun coefficient ↦ decide (coefficient = 0)) coefficients hne

/-- A new constant term leaves the last coefficient, unless it is the only one. -/
theorem getLast_setHead {hne} (hlast : coefficients.getLast hne ≠ 0) {constant}
    (hzero : ¬ (constant = 0 ∧ coefficients.length = 1)) :
    (constant :: coefficients.tail).getLast (List.cons_ne_nil _ _) ≠ 0 := by
  match coefficients with
  | [_] => simpa using hzero
  | _ :: _ :: _ => simpa using hlast

end LastCoefficient

/-! ### Over the scalars -/

/-- The largest size of an allocation. -/
def isizeMax : ℕ := 2 ^ 63 - 1

/-- The size of a scalar in bytes. -/
def coefficientSize : ℕ := 32

section Scalars

variable {F : Type} [Field F] [DecidableEq F]

namespace Polynomial

/-- The highest zero coefficients are dropped; nothing may not remain. -/
def new (coefficients : List F) : Except ProtocolError (Polynomial F) :=
  if hne : coefficients.rdropWhile (· = 0) ≠ [] then .ok ⟨_, hne, getLast_rdropWhile_ne_zero hne⟩
  else .error .emptyOrZeroCoefficients

/-- A polynomial of the given degree with the given random coefficients. -/
def generatePolynomial (random : ℕ → F) (degree : ℕ) :
    Except ProtocolError (Polynomial F) :=
  if (degree + 1) * coefficientSize ≤ isizeMax then new ((List.range (degree + 1)).map random)
  else .error .integerOverflow

variable (polynomial : Polynomial F)

/-- The constant term. -/
def evalAtZero : F :=
  polynomial.coefficients.head polynomial.ne_nil

/-- Evaluation by Horner's rule, except at zero. -/
def evalAtPoint (point : F) : F :=
  if point = 0 then polynomial.evalAtZero
  else polynomial.coefficients.foldr (fun coefficient value ↦ value * point + coefficient) 0

/-- Evaluation at the scalar of a participant. -/
def evalAtParticipant (participant : Participant) : F :=
  polynomial.evalAtPoint participant.scalar

/-- The sum of shares with the Lagrange coefficients of their identifiers. -/
def evalInterpolation
    (lagrangeCoefficients : List F → Option F → Except ProtocolError (List F))
    (identifiers shares : List F) (point : Option F) : Except ProtocolError F := do
  if identifiers.length ≠ shares.length ∨ identifiers.length ≤ 1 then
    .error .invalidInterpolationArguments
  let coefficients ← lagrangeCoefficients identifiers point
  return (coefficients.zip shares).foldl (fun interpolation entry ↦
    interpolation + entry.1 * entry.2) 0

/-- Replaces the constant term; the result may not be zero. -/
def setNonzeroConstant (v : F) : Except ProtocolError (Polynomial F) :=
  if hzero : v = 0 ∧ polynomial.coefficients.length = 1 then .error .emptyOrZeroCoefficients
  else
    .ok ⟨v :: polynomial.coefficients.tail, List.cons_ne_nil _ _,
      getLast_setHead polynomial.last_ne_zero hzero⟩

/-- The polynomial one degree up, with constant term zero. -/
def extendWithZero : Except ProtocolError (Polynomial F) := new (0 :: polynomial.coefficients)

end Polynomial

end Scalars

/-! ### In the exponent -/

namespace PolynomialCommitment

section New

variable {G : Type} [Zero G] [DecidableEq G]

/-- The highest identities are dropped; nothing may not remain. -/
def new (coefCommitments : List G) : Except ProtocolError (PolynomialCommitment G) :=
  if hne : coefCommitments.rdropWhile (· = 0) ≠ [] then .ok ⟨_, hne, getLast_rdropWhile_ne_zero hne⟩
  else .error .emptyOrZeroCoefficients

variable (commitment : PolynomialCommitment G)

def degree : ℕ := commitment.coefficients.length - 1

/-- The constant term. -/
def evalAtZero : G :=
  commitment.coefficients.head commitment.ne_nil

/-- The commitment one degree up, with the identity as its constant term. -/
def extendWithIdentity : Except ProtocolError (PolynomialCommitment G) :=
  new (0 :: commitment.coefficients)

/-- Replaces the constant term; the result may not be the identity alone. -/
def setNonIdentityConstant (v : G) : Except ProtocolError (PolynomialCommitment G) :=
  if hzero : v = 0 ∧ commitment.coefficients.length = 1 then .error .emptyOrZeroCoefficients
  else
    .ok ⟨v :: commitment.coefficients.tail, List.cons_ne_nil _ _,
      getLast_setHead commitment.last_ne_zero hzero⟩

end New

variable {F G : Type} [Field F] [AddCommGroup G] [Module F G]
  [DecidableEq G]

/-- The sum of the coefficients at an index, of which at least one exists. -/
def sumAt (self rhs : List G) (i : ℕ) : Except ProtocolError G :=
  match self[i]?, rhs[i]? with
  | some a, some b => .ok (a + b)
  | some a, none => .ok a
  | none, some b => .ok b
  | none, none => .error .emptyOrZeroCoefficients

/-- The sum of commitments of any lengths, unless it is zero. -/
def add (self rhs : PolynomialCommitment G) :
    Except ProtocolError (PolynomialCommitment G) := do
  let coefficients ← (List.range (max self.coefficients.length rhs.coefficients.length)).mapM
    (sumAt self.coefficients rhs.coefficients)
  new coefficients

/-- Evaluation by Horner's rule. -/
def evalAtPoint (commitment : PolynomialCommitment G) (point : F) : G :=
  commitment.coefficients.foldr (fun coefficient out ↦ point • out + coefficient) 0

variable (F) in
/-- Evaluation at the scalar of a participant. -/
def evalAtParticipant (commitment : PolynomialCommitment G) (participant : Participant) :
    G :=
  commitment.evalAtPoint (participant.scalar : F)

/-- Interpolation in the exponent. -/
def evalExponentInterpolation
    (lagrangeCoefficients : List F → Option F → Except ProtocolError (List F))
    (identifiers : List F) (shares : List G) (point : Option F) :
    Except ProtocolError G := do
  if identifiers.length ≠ shares.length ∨ identifiers.length ≤ 1 then
    .error .invalidInterpolationArguments
  let coefficients ← lagrangeCoefficients identifiers point
  return (coefficients.zip shares).foldl (fun interpolation entry ↦
    interpolation + entry.1 • entry.2) 0

end PolynomialCommitment

/-! ### Formal polynomials -/

section Formal

variable {F : Type} [Field F]

/-- The polynomial with the given coefficients. -/
noncomputable def formalOf (coefficients : List F) : F[X] :=
  ∑ i ∈ Finset.range coefficients.length, monomial i (coefficients.getD i 0)

theorem coeff_formalOf (coefficients : List F) (i : ℕ) :
    (formalOf coefficients).coeff i = coefficients.getD i 0 := by
  rw [formalOf, finsetSum_coeff]
  by_cases hi : i < coefficients.length
  · simp [coeff_monomial, hi]
  · simp [coeff_monomial, hi]

theorem formalOf_cons (constant : F) (rest : List F) :
    formalOf (constant :: rest) = X * formalOf rest + C constant := by
  ext i
  rw [coeff_add, coeff_formalOf]
  cases i with
  | zero => simp
  | succ i => simp [coeff_X_mul, coeff_formalOf]

theorem formalOf_rdropWhile [DecidableEq F] (coefficients : List F) :
    formalOf (coefficients.rdropWhile (· = 0)) = formalOf coefficients := by
  induction coefficients using List.reverseRecOn with
  | nil => rfl
  | append_singleton rest last ih =>
    rw [List.rdropWhile_concat]
    split
    next hzero =>
      rw [ih, of_decide_eq_true hzero]
      ext i
      rw [coeff_formalOf, coeff_formalOf]
      rcases lt_or_ge i rest.length with hi | hi
      · rw [List.getD_append _ _ _ _ hi]
      · rw [List.getD_eq_default _ _ hi, List.getD_append_right _ _ _ _ hi]
        cases i - rest.length <;> rfl
    · rfl

namespace Polynomial

noncomputable def formal (polynomial : Polynomial F) : F[X] :=
  formalOf polynomial.coefficients

theorem formal_ne_zero (polynomial : Polynomial F) : polynomial.formal ≠ 0 := by
  intro hzero
  have hcoeff := coeff_formalOf polynomial.coefficients (polynomial.coefficients.length - 1)
  have hlt := List.length_pos_iff.mpr polynomial.ne_nil
  rw [← formal, hzero, coeff_zero, List.getD_eq_getElem _ _ (by omega),
    ← List.getLast_eq_getElem polynomial.ne_nil] at hcoeff
  exact polynomial.last_ne_zero hcoeff.symm

theorem evalAtZero_eq (polynomial : Polynomial F) :
    polynomial.evalAtZero = polynomial.formal.eval 0 := by
  obtain ⟨coefficients, hne, hlast⟩ := polynomial
  cases coefficients with
  | nil => exact absurd rfl hne
  | cons => simp [evalAtZero, formal, formalOf_cons]

theorem foldr_eq_eval (coefficients : List F) (point : F) :
    coefficients.foldr (fun coefficient value ↦ value * point + coefficient) 0 =
      (formalOf coefficients).eval point := by
  induction coefficients with
  | nil => simp [formalOf]
  | cons _ _ ih =>
    rw [List.foldr_cons, ih, formalOf_cons, eval_add, eval_mul, eval_X, eval_C, mul_comm]

variable [DecidableEq F]

theorem evalAtPoint_eq (polynomial : Polynomial F) (point : F) :
    polynomial.evalAtPoint point = polynomial.formal.eval point := by
  unfold evalAtPoint
  split
  next hzero => rw [hzero, evalAtZero_eq]
  · exact foldr_eq_eval polynomial.coefficients point

/-- The constructor keeps the formal polynomial, which must not be zero. -/
theorem new_cases (coefficients : List F) :
    (formalOf coefficients = 0 ∧ new coefficients = .error .emptyOrZeroCoefficients) ∨
      ∃ polynomial, polynomial.formal = formalOf coefficients ∧
        new coefficients = .ok polynomial := by
  by_cases hne : coefficients.rdropWhile (· = 0) ≠ []
  · exact .inr ⟨⟨_, hne, _⟩, formalOf_rdropWhile coefficients, dif_pos hne⟩
  · refine .inl ⟨?_, dif_neg hne⟩
    rw [← formalOf_rdropWhile, not_not.mp hne]
    rfl

omit [DecidableEq F] in
/-- The sum of the shares weighted with their coefficients. -/
theorem evalInterpolation_eq {identifiers shares coefficients point}
    {lagrangeCoefficients : List F → Option F → Except ProtocolError (List F)}
    (hlength : identifiers.length = shares.length) (htwo : 1 < identifiers.length)
    (hcoefficients : lagrangeCoefficients identifiers point = .ok coefficients) :
    evalInterpolation lagrangeCoefficients identifiers shares point =
      .ok ((coefficients.zip shares).map fun entry ↦ entry.1 * entry.2).sum := by
  rw [evalInterpolation, if_neg (by omega), hcoefficients, List.sum_eq_foldl, List.foldl_map]
  rfl

end Polynomial

end Formal

/-! ### Commitments are homomorphic -/

section Commitments

variable {F G : Type} [Field F] [DecidableEq F] [AddCommGroup G]
  [Module F G] [DecidableEq G]

/-- Multiplies every coefficient with the generator. -/
def Polynomial.commitPolynomial (generator : G) (polynomial : Polynomial F) :
    Except ProtocolError (PolynomialCommitment G) :=
  PolynomialCommitment.new (polynomial.coefficients.map (· • generator))

namespace PolynomialCommitment

/-- The sums of the coefficients of two lists of any lengths. -/
def sums (first second : List F) : List F :=
  (List.range (max first.length second.length)).map fun i ↦ first.getD i 0 + second.getD i 0

omit [DecidableEq F] in
theorem formalOf_sums (first second : List F) :
    formalOf (sums first second) = formalOf first + formalOf second := by
  ext i
  rw [coeff_add, coeff_formalOf, coeff_formalOf, coeff_formalOf]
  rcases lt_or_ge i (max first.length second.length) with hi | hi
  · rw [List.getD_eq_getElem _ _ (by simpa [sums] using hi)]
    simp [sums]
  · rw [List.getD_eq_default _ _ (by simpa [sums] using hi),
      List.getD_eq_default _ _ ((le_max_left _ _).trans hi),
      List.getD_eq_default _ _ ((le_max_right _ _).trans hi), add_zero]

variable {generator : G}

omit [DecidableEq F] [DecidableEq G] in
/-- The loop of the addition, on commitments. -/
theorem mapM_sumAt (first second : List F) :
    (List.range (max first.length second.length)).mapM
        (sumAt (first.map (· • generator)) (second.map (· • generator))) =
      .ok ((sums first second).map (· • generator)) := by
  have hsum : ∀ i ∈ List.range (max first.length second.length),
      sumAt (first.map (· • generator)) (second.map (· • generator)) i =
        .ok ((first.getD i 0 + second.getD i 0) • generator) := by
    intro i hi
    rw [List.mem_range] at hi
    simp only [sumAt, List.getElem?_map, List.getD_eq_getElem?_getD]
    rcases hfirst : first[i]? with _ | a <;> rcases hsecond : second[i]? with _ | b
    · rw [List.getElem?_eq_none_iff] at hfirst hsecond
      omega
    all_goals simp [add_smul]
  rw [sums, List.map_map]
  generalize List.range (max first.length second.length) = indices at hsum ⊢
  induction indices with
  | nil => rfl
  | cons i rest ih =>
    obtain ⟨hhead, hrest⟩ := List.forall_mem_cons.mp hsum
    rw [List.mapM_cons, hhead, ih hrest]
    rfl

omit [DecidableEq F] [DecidableEq G] in
theorem foldr_map_smul (coefficients : List F) (point : F) :
    (coefficients.map (· • generator)).foldr (fun coefficient out ↦ point • out + coefficient) 0 =
      (formalOf coefficients).eval point • generator := by
  induction coefficients with
  | nil => simp [formalOf]
  | cons _ _ ih =>
    rw [List.map_cons, List.foldr_cons, ih, formalOf_cons, eval_add, eval_mul, eval_X, eval_C,
      add_smul, mul_smul]

omit [DecidableEq F] [DecidableEq G] in
theorem evalExponentInterpolation_map_smul
    (lagrangeCoefficients : List F → Option F → Except ProtocolError (List F))
    (identifiers shares : List F) (point : Option F) :
    evalExponentInterpolation lagrangeCoefficients identifiers (shares.map (· • generator)) point =
      (Polynomial.evalInterpolation lagrangeCoefficients identifiers shares point).map
        (· • generator) := by
  have hfold (entries : List (F × F)) (start : F) :
      (entries.map (Prod.map id (· • generator))).foldl (fun interpolation entry ↦
          interpolation + entry.1 • entry.2) (start • generator) =
        entries.foldl (fun interpolation entry ↦ interpolation + entry.1 * entry.2) start •
          generator := by
    induction entries generalizing start with
    | nil => rfl
    | cons entry _ ih =>
      rw [List.foldl_cons, ← ih, add_smul, mul_smul]
      rfl
  unfold evalExponentInterpolation Polynomial.evalInterpolation
  rw [List.length_map]
  split_ifs
  · rfl
  · cases lagrangeCoefficients identifiers point with
    | error => rfl
    | ok coefficients =>
      have hzip := hfold (coefficients.zip shares) 0
      rw [← List.zip_map_right, zero_smul] at hzip
      exact congrArg Except.ok hzip

end PolynomialCommitment

namespace Polynomial

open PolynomialCommitment

section Nonzero

variable {generator : G} (hgenerator : generator ≠ 0)
include hgenerator

/-- The zeros at the top are dropped before the commitment or after it. -/
theorem new_map_smul (coefficients : List F) :
    PolynomialCommitment.new (coefficients.map (· • generator)) =
      (new coefficients >>= commitPolynomial generator) := by
  have hzero : (fun coefficient : F ↦ decide (coefficient • generator = 0)) =
      fun coefficient ↦ decide (coefficient = 0) := by
    simp [hgenerator]
  have htrim (coefficients : List F) :
      (coefficients.map (· • generator)).rdropWhile (· = 0) =
        (coefficients.rdropWhile (· = 0)).map (· • generator) := by
    simp only [List.rdropWhile, ← List.map_reverse, List.dropWhile_map, Function.comp_def, hzero]
  by_cases hnil : coefficients.rdropWhile (· = 0) = []
  · simp only [PolynomialCommitment.new, new, htrim, hnil]
    rfl
  · rw [new, dif_pos hnil]
    change _ = PolynomialCommitment.new ((coefficients.rdropWhile (· = 0)).map (· • generator))
    simp only [PolynomialCommitment.new, htrim, List.rdropWhile_idempotent]

omit [DecidableEq F] in
theorem exists_commitPolynomial (polynomial : Polynomial F) :
    ∃ commitment, commitPolynomial generator polynomial = .ok commitment ∧
      commitment.coefficients = polynomial.coefficients.map (· • generator) := by
  have hne : polynomial.coefficients.map (· • generator) ≠ [] := by simpa using polynomial.ne_nil
  have hlast : (polynomial.coefficients.map (· • generator)).getLast hne ≠ 0 := by
    rw [List.getLast_map]
    exact smul_ne_zero polynomial.last_ne_zero hgenerator
  have htrim : (polynomial.coefficients.map (· • generator)).rdropWhile (· = 0) =
      polynomial.coefficients.map (· • generator) :=
    List.rdropWhile_eq_self_iff.mpr fun _ ↦ by simpa using hlast
  refine ⟨⟨_, hne, hlast⟩, ?_, rfl⟩
  simp only [commitPolynomial, PolynomialCommitment.new, htrim, dif_pos hne]

/-- Adding commitments, evaluating them, putting in the identity as constant term and interpolating
in the exponent give the commitment to, or the multiple of the generator by, the sum, the value, the
product with `X` and the interpolation of the polynomials. -/
theorem commitPolynomial_homomorphic :
    (∀ polynomial : Polynomial F, ∃ commitment,
      commitPolynomial generator polynomial = .ok commitment ∧
        commitment.coefficients = polynomial.coefficients.map (· • generator)) ∧
    (∀ coefficients : List F,
      ((formalOf coefficients = 0 ∧ new coefficients = .error .emptyOrZeroCoefficients) ∨
        ∃ polynomial, polynomial.formal = formalOf coefficients ∧
          new coefficients = .ok polynomial) ∧
      PolynomialCommitment.new (coefficients.map (· • generator)) =
        (new coefficients >>= commitPolynomial generator)) ∧
    (∀ (first second : Polynomial F) (commitment other : PolynomialCommitment G),
      commitPolynomial generator first = .ok commitment →
      commitPolynomial generator second = .ok other →
      (first.formal + second.formal = 0 ∧
        commitment.add other = .error .emptyOrZeroCoefficients) ∨
      ∃ sum result, sum.formal = first.formal + second.formal ∧
        commitPolynomial generator sum = .ok result ∧ commitment.add other = .ok result) ∧
    (∀ (polynomial : Polynomial F) (commitment : PolynomialCommitment G),
      commitPolynomial generator polynomial = .ok commitment →
      (polynomial.evalAtZero = polynomial.formal.eval 0 ∧
        commitment.evalAtZero = polynomial.formal.eval 0 • generator) ∧
      (∀ point : F, polynomial.evalAtPoint point = polynomial.formal.eval point ∧
        commitment.evalAtPoint point = polynomial.formal.eval point • generator) ∧
      ∃ extended result, extended.formal = X * polynomial.formal ∧
        polynomial.extendWithZero = .ok extended ∧
        commitPolynomial generator extended = .ok result ∧
        commitment.extendWithIdentity = .ok result) ∧
    ∀ lagrangeCoefficients (identifiers shares : List F) (point : Option F),
      evalExponentInterpolation lagrangeCoefficients identifiers (shares.map (· • generator))
          point =
        (evalInterpolation lagrangeCoefficients identifiers shares point).map (· • generator) ∧
      ∀ coefficients, identifiers.length = shares.length → 1 < identifiers.length →
        lagrangeCoefficients identifiers point = .ok coefficients →
        evalInterpolation lagrangeCoefficients identifiers shares point =
          .ok ((coefficients.zip shares).map fun entry ↦ entry.1 * entry.2).sum := by
  have hcommitted {polynomial : Polynomial F} {commitment : PolynomialCommitment G}
      (hcommit : commitPolynomial generator polynomial = .ok commitment) :
      commitment.coefficients = polynomial.coefficients.map (· • generator) := by
    obtain ⟨same, hsame, hcoefficients⟩ := exists_commitPolynomial hgenerator polynomial
    cases hcommit.symm.trans hsame
    exact hcoefficients
  refine ⟨exists_commitPolynomial hgenerator, fun coefficients ↦ ⟨new_cases coefficients,
    new_map_smul hgenerator coefficients⟩, fun first second commitment other hfirst hsecond ↦ ?_,
    fun polynomial commitment hcommit ↦ ⟨⟨evalAtZero_eq polynomial, ?_⟩, fun point ↦
      ⟨evalAtPoint_eq polynomial point, ?_⟩, ?_⟩, fun lagrangeCoefficients identifiers shares point
      ↦ ⟨evalExponentInterpolation_map_smul _ _ _ _, fun _ ↦ evalInterpolation_eq⟩⟩
  · have hadd : commitment.add other =
        (new (sums first.coefficients second.coefficients) >>= commitPolynomial generator) := by
      rw [← new_map_smul hgenerator, add, hcommitted hfirst, hcommitted hsecond, List.length_map,
        List.length_map, mapM_sumAt]
      rfl
    rw [hadd, formal, formal, ← formalOf_sums]
    rcases new_cases (sums first.coefficients second.coefficients) with ⟨hzero, hnew⟩ |
      ⟨sum, hformal, hnew⟩
    · exact .inl ⟨hzero, by rw [hnew]; rfl⟩
    · obtain ⟨result, hresult, -⟩ := exists_commitPolynomial hgenerator sum
      exact .inr ⟨sum, result, hformal, hresult, by rw [hnew]; exact hresult⟩
  · rw [← evalAtZero_eq, evalAtZero, PolynomialCommitment.evalAtZero]
    simp only [hcommitted hcommit, List.head_map]
  · rw [PolynomialCommitment.evalAtPoint, hcommitted hcommit, foldr_map_smul, formal]
  · have hformal : formalOf (0 :: polynomial.coefficients) = X * polynomial.formal := by
      rw [formalOf_cons, C_0, add_zero, formal]
    have hextend : commitment.extendWithIdentity =
        (new (0 :: polynomial.coefficients) >>= commitPolynomial generator) := by
      rw [extendWithIdentity, hcommitted hcommit, ← new_map_smul hgenerator, List.map_cons,
        zero_smul]
    rcases new_cases (0 :: polynomial.coefficients) with ⟨hzero, -⟩ | ⟨extended, hsame, hnew⟩
    · exact absurd (hformal.symm.trans hzero) (mul_ne_zero X_ne_zero polynomial.formal_ne_zero)
    · obtain ⟨result, hresult, -⟩ := exists_commitPolynomial hgenerator extended
      exact ⟨extended, result, hsame.trans hformal, hnew, hresult,
        by rw [hextend, hnew]; exact hresult⟩

end Nonzero

/-- `1 + 2 X` and `3 - 2 X` in the exponent of one: the sum loses its top coefficient, and the
values, the extension and the interpolation at two points are those of the polynomials. -/
theorem commitPolynomial_homomorphic_trimmed :
    ∃ (first second : Polynomial ℚ) (commitment other : PolynomialCommitment ℚ),
      first.coefficients = [1, 2] ∧ second.coefficients = [3, -2] ∧
      commitPolynomial (1 : ℚ) first = .ok commitment ∧
      commitPolynomial (1 : ℚ) second = .ok other ∧
      (∃ sum result, sum.formal = first.formal + second.formal ∧
        commitPolynomial (1 : ℚ) sum = .ok result ∧ commitment.add other = .ok result) ∧
      commitment.evalAtPoint (5 : ℚ) = first.formal.eval 5 • (1 : ℚ) ∧
      (∃ extended result, extended.formal = X * first.formal ∧
        commitPolynomial (1 : ℚ) extended = .ok result ∧
        commitment.extendWithIdentity = .ok result) ∧
      evalExponentInterpolation (fun _ _ ↦ .ok [2, -1]) [(1 : ℚ), 2] ([(3 : ℚ), 5].map
          (· • (1 : ℚ))) none =
        (evalInterpolation (fun _ _ ↦ .ok [2, -1]) [(1 : ℚ), 2] [3, 5] none).map
          (· • (1 : ℚ)) := by
  obtain ⟨hcommit, -, hadd, heval, hinterpolation⟩ :=
    @commitPolynomial_homomorphic ℚ ℚ _ _ _ _ _ 1 one_ne_zero
  let first : Polynomial ℚ := ⟨[1, 2], by simp, by simp⟩
  let second : Polynomial ℚ := ⟨[3, -2], by simp, by simp⟩
  obtain ⟨commitment, hfirst, -⟩ := hcommit first
  obtain ⟨other, hsecond, -⟩ := hcommit second
  obtain ⟨-, hvalue, extended, result, hformal, -, hextended⟩ := heval first commitment hfirst
  refine ⟨first, second, commitment, other, rfl, rfl, hfirst, hsecond, ?_, (hvalue 5).2,
    ⟨extended, result, hformal, hextended⟩, (hinterpolation _ _ _ _).1⟩
  refine (hadd first second commitment other hfirst hsecond).resolve_left fun hzero ↦ ?_
  have hconstant := congrArg (eval 0) hzero.1
  rw [eval_add, ← evalAtZero_eq, ← evalAtZero_eq] at hconstant
  norm_num [evalAtZero, first, second] at hconstant

end Polynomial

end Commitments

end NearMpc.Threshold
