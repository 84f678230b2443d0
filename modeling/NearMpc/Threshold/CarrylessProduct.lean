import NearMpc.Threshold.ObliviousTransfer

/-!
# The carry-less product

`gf_mul` of `bits.rs` on its 64-bit words, and what it computes. The loop over words agrees with
`BitVector.gfMul`, and the bits of the result are the coefficients of the product of two polynomials
over the field with two elements (`gfMul_carryless`). All but the last step works modulo `X ^ 256`,
where a shift that drops the top bit is still a product with `X`.
-/

set_option autoImplicit false

open Polynomial

namespace NearMpc.Threshold.BitVector

/-! ### Words -/

/-- The words of a vector, the lowest first. -/
def words {width : ℕ} (count : ℕ) (vector : BitVec width) : List (BitVec 64) :=
  (List.range count).map fun i ↦ vector.extractLsb' (64 * i) 64

/-- Shifts the words to the left by one bit. -/
def shiftWords (prev : BitVec 64) : List (BitVec 64) → List (BitVec 64)
  | [] => []
  | out :: rest => (out <<< 1 ||| prev) :: shiftWords (out >>> 63) rest

/-- Xors two words into those from the `j`-th on. -/
def xorWords (out : List (BitVec 64)) (j : ℕ) (toAdd : List (BitVec 64)) : List (BitVec 64) :=
  [0, 1].foldl (fun out i ↦ out.modify (j + i) (· ^^^ toAdd.getD i 0)) out

/-- The round of `gf_mul` for the bits `k` of the words. -/
def wordRound (self other out : List (BitVec 64)) (k : ℕ) : List (BitVec 64) :=
  let added := [0, 1].foldl (fun out j ↦
    xorWords out j (if (self.getD j 0 >>> k).getLsbD 0 then other else [0, 0])) out
  if k ≠ 0 then shiftWords 0 added else added

def gfMulWords (self other : List (BitVec 64)) : List (BitVec 64) :=
  (List.range 64).reverse.foldl (wordRound self other) [0, 0, 0, 0]

theorem shiftWords_words (out : BitVec 256) : shiftWords 0 (words 4 out) = words 4 (out <<< 1) := by
  simp only [words, List.range, List.range.loop, List.map_cons, List.map_nil, shiftWords,
    List.cons.injEq, and_true]
  refine ⟨?_, ?_, ?_, ?_⟩ <;> ext i hi <;> simp <;> grind

theorem xorWords_words (out : BitVec 256) (toAdd : BitVector) {j} (hj : j < 2) :
    xorWords (words 4 out) j (words 2 toAdd) =
      words 4 (out ^^^ (toAdd.setWidth 256 <<< (64 * j))) := by
  obtain rfl | rfl : j = 0 ∨ j = 1 := by omega
  all_goals
    simp only [xorWords, words, List.range, List.range.loop, List.map_cons, List.map_nil,
      List.foldl_cons, List.foldl_nil, List.modify, List.modifyTailIdx, List.modifyTailIdx.go,
      List.modifyHead, List.getD_cons_zero, List.getD_cons_succ, List.cons.injEq, and_true]
    refine ⟨?_, ?_, ?_, ?_⟩ <;> ext i hi <;> simp <;> grind

/-- One round of `gfMul`. -/
def gfRound (first second : BitVector) (out : BitVec 256) (k : ℕ) : BitVec 256 :=
  let added := [0, 1].foldl (fun out j ↦
    if first.getLsbD (64 * j + k) then out ^^^ (second.setWidth 256 <<< (64 * j)) else out) out
  if k ≠ 0 then added <<< 1 else added

theorem select_words (first second : BitVector) (out : BitVec 256) {j k} (hj : j < 2) (hk : k < 64)
    :
    xorWords (words 4 out) j
        (if ((words 2 first).getD j 0 >>> k).getLsbD 0 then words 2 second else [0, 0]) =
      words 4 (if first.getLsbD (64 * j + k) then out ^^^ (second.setWidth 256 <<< (64 * j))
        else out) := by
  have hbit : ((words 2 first).getD j 0 >>> k).getLsbD 0 = first.getLsbD (64 * j + k) := by
    simp [words, hj, hk]
  rw [hbit]
  cases first.getLsbD (64 * j + k) with
  | true => exact xorWords_words out second hj
  | false =>
    have hzero := xorWords_words out 0#128 hj
    rwa [BitVec.setWidth_zero, BitVec.zero_shiftLeft, BitVec.xor_zero] at hzero

theorem gfMulWords_words (first second : BitVector) :
    gfMulWords (words 2 first) (words 2 second) = words 4 (gfMul first second) := by
  have hrounds (ks : List ℕ) (hks : ∀ k ∈ ks, k < 64) (out : BitVec 256) :
      ks.foldl (wordRound (words 2 first) (words 2 second)) (words 4 out) =
        words 4 (ks.foldl (gfRound first second) out) := by
    induction ks generalizing out with
    | nil => rfl
    | cons k ks ih =>
      rw [List.forall_mem_cons] at hks
      have hround : wordRound (words 2 first) (words 2 second) (words 4 out) k =
          words 4 (gfRound first second out k) := by
        simp only [wordRound, gfRound, List.foldl_cons, List.foldl_nil,
          select_words first second _ zero_lt_two hks.1,
          select_words first second _ one_lt_two hks.1, shiftWords_words]
        exact (apply_ite (words 4) ..).symm
      rw [List.foldl_cons, hround, ih hks.2, List.foldl_cons]
  exact hrounds _ (by simp) 0

/-! ### Polynomials -/

/-- The polynomial whose coefficients are the bits of a vector. -/
noncomputable def toPolynomial {width : ℕ} (vector : BitVec width) : (ZMod 2)[X] :=
  ∑ i ∈ Finset.range width, monomial i (if vector.getLsbD i then 1 else 0)

section ToPolynomial

variable {width : ℕ} (first second : BitVec width)

theorem coeff_toPolynomial (i : ℕ) :
    (toPolynomial first).coeff i = if first.getLsbD i then 1 else 0 := by
  by_cases hi : i < width
  · simp [toPolynomial, coeff_monomial, hi]
  · simp [toPolynomial, coeff_monomial, hi, BitVec.getLsbD_of_ge first i (by omega)]

theorem toPolynomial_xor :
    toPolynomial (first ^^^ second) = toPolynomial first + toPolynomial second := by
  ext i
  simp only [coeff_add, coeff_toPolynomial, BitVec.getLsbD_xor]
  cases first.getLsbD i <;> cases second.getLsbD i <;> decide

variable {first second}

theorem eq_of_toPolynomial_eq (hsame : toPolynomial first = toPolynomial second) :
    first = second := by
  refine BitVec.eq_of_getLsbD_eq fun i _ ↦ ?_
  have hbit := congrArg (coeff · i) hsame
  simp only [coeff_toPolynomial] at hbit
  grind

end ToPolynomial

/-- A polynomial up to the powers that a product drops. -/
noncomputable abbrev low : (ZMod 2)[X] →+* (ZMod 2)[X] ⧸ Ideal.span {(X : (ZMod 2)[X]) ^ 256} :=
  Ideal.Quotient.mk _

theorem low_eq_iff {first second} :
    low first = low second ↔ ∀ i < 256, first.coeff i = second.coeff i := by
  simp only [Ideal.Quotient.eq, Ideal.mem_span_singleton, X_pow_dvd_iff, coeff_sub, sub_eq_zero]

theorem low_shiftLeft (vector : BitVec 256) (n : ℕ) :
    low (toPolynomial (vector <<< n)) = low (X ^ n * toPolynomial vector) := by
  rw [low_eq_iff]
  intro i hi
  simp only [coeff_toPolynomial, coeff_X_pow_mul', BitVec.getLsbD_shiftLeft]
  grind

theorem toPolynomial_setWidth (vector : BitVector) :
    toPolynomial (vector.setWidth 256) = toPolynomial vector := by
  ext i
  rw [coeff_toPolynomial, coeff_toPolynomial, BitVec.getLsbD_setWidth]
  by_cases hi : i < 256
  · simp [hi]
  · simp [hi, BitVec.getLsbD_of_ge vector i (by omega)]

theorem low_select (second : BitVector) (out : BitVec 256) (bit : Bool) (j : ℕ) :
    low (toPolynomial (if bit then out ^^^ (second.setWidth 256 <<< (64 * j)) else out)) =
      low (toPolynomial out + monomial (64 * j) (if bit then 1 else 0) * toPolynomial second) := by
  cases bit with
  | false => simp
  | true =>
    rw [if_pos rfl, if_pos rfl, toPolynomial_xor, map_add, low_shiftLeft, toPolynomial_setWidth,
      monomial_one_right_eq_X_pow, map_add]

/-- What a round adds for the bits `k` of the words of a vector. -/
noncomputable def bitsAt (first : BitVector) (k : ℕ) : (ZMod 2)[X] :=
  monomial 0 (if first.getLsbD k then 1 else 0) +
    monomial 64 (if first.getLsbD (64 + k) then 1 else 0)

theorem low_added (first second : BitVector) (out : BitVec 256) (k : ℕ) :
    low (toPolynomial ([0, 1].foldl (fun out j ↦ if first.getLsbD (64 * j + k) then
        out ^^^ (second.setWidth 256 <<< (64 * j)) else out) out)) =
      low (toPolynomial out + bitsAt first k * toPolynomial second) := by
  rw [List.foldl_cons, List.foldl_cons, List.foldl_nil, low_select, map_add, low_select, ← map_add,
    mul_zero, zero_add, mul_one, add_assoc, ← add_mul, bitsAt]

/-- What the rounds from `n` down to zero add. -/
theorem low_rounds (first second : BitVector) (n : ℕ) (out : BitVec 256) :
    low (toPolynomial ((List.range (n + 1)).reverse.foldl (gfRound first second) out)) =
      low (X ^ n * toPolynomial out +
        (∑ k ∈ Finset.range (n + 1), X ^ k * bitsAt first k) * toPolynomial second) := by
  induction n generalizing out with
  | zero =>
    refine (low_added first second out 0).trans ?_
    simp
  | succ n ih =>
    have hround : low (toPolynomial (gfRound first second out (n + 1))) =
        low (X * (toPolynomial out + bitsAt first (n + 1) * toPolynomial second)) := by
      rw [gfRound, if_pos n.succ_ne_zero, low_shiftLeft, map_mul, low_added, ← map_mul, pow_one]
    rw [List.range_succ, List.reverse_append, List.reverse_singleton, List.singleton_append,
      List.foldl_cons, ih, map_add, map_mul, hround, ← map_mul, ← map_add,
      Finset.sum_range_succ _ (n + 1)]
    ring_nf

theorem sum_bitsAt (first : BitVector) :
    ∑ k ∈ Finset.range 64, X ^ k * bitsAt first k = toPolynomial first := by
  simp only [bitsAt, mul_add, X_pow_mul_monomial, Finset.sum_add_distrib, zero_add, toPolynomial]
  exact (Finset.sum_range_add _ 64 64).symm

theorem toPolynomial_gfMul (first second : BitVector) :
    toPolynomial (gfMul first second) = toPolynomial first * toPolynomial second := by
  have hlow := low_rounds first second 63 0
  have hdegree (vector : BitVector) : (toPolynomial vector).natDegree ≤ 127 := by
    rw [natDegree_le_iff_coeff_eq_zero]
    intro i hi
    rw [coeff_toPolynomial, BitVec.getLsbD_of_ge vector i hi]
    rfl
  ext i
  by_cases hi : i < 256
  · refine low_eq_iff.mp (hlow.trans ?_) i hi
    rw [sum_bitsAt]
    simp [toPolynomial]
  · rw [coeff_toPolynomial, BitVec.getLsbD_of_ge _ i (by omega),
      coeff_eq_zero_of_natDegree_lt]
    · rfl
    · have hproduct := (natDegree_mul_le (p := toPolynomial first) (q := toPolynomial second)).trans
        (add_le_add (hdegree first) (hdegree second))
      omega

/-- On the words of two vectors, `gf_mul` gives the words of a vector whose bits are the
coefficients of the product of their polynomials; so it is commutative and bilinear. -/
theorem gfMul_carryless (first second other : BitVector) :
    gfMulWords (words 2 first) (words 2 second) = words 4 (gfMul first second) ∧
    toPolynomial (gfMul first second) = toPolynomial first * toPolynomial second ∧
    gfMul first second = gfMul second first ∧
    gfMul (first ^^^ other) second = gfMul first second ^^^ gfMul other second ∧
    gfMul first (second ^^^ other) = gfMul first second ^^^ gfMul first other := by
  refine ⟨gfMulWords_words first second, toPolynomial_gfMul first second, ?_, ?_, ?_⟩
  all_goals
    apply eq_of_toPolynomial_eq
    simp only [toPolynomial_xor, toPolynomial_gfMul]
    ring

end NearMpc.Threshold.BitVector
