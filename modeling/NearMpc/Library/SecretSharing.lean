import Mathlib

/-!
# Secret sharing

A `Sharing` is a polynomial over a field with a bound on its degree; its secret is the value at
zero, and the share of a place is the value there. Sharings with one threshold form a vector space.
Any set of more points than the degree determines the value at zero (`sum_lagrange_zero`), so the
shares of as many places as the threshold, weighted by their Lagrange coefficients, add up to the
secret (`Sharing.sum_lagrangeAtZero_mul_share`).
-/

set_option autoImplicit false

namespace NearMpc.Library

open Polynomial

section Lagrange

variable {Index F : Type} [DecidableEq Index] [Field F] {nodes : Finset Index}
  {place : Index → F}

/-- The value at zero from the values at more points than the degree. -/
theorem sum_lagrange_zero (hplace : Set.InjOn place nodes) {polynomial : F[X]}
    (hdegree : polynomial.degree < nodes.card) :
    ∑ node ∈ nodes, (∏ other ∈ nodes.erase node, place other / (place other - place node)) *
      polynomial.eval (place node) = polynomial.eval 0 := by
  conv_rhs => rw [Lagrange.eq_interpolate hplace hdegree]
  rw [Lagrange.interpolate_apply, eval_finsetSum]
  refine Finset.sum_congr rfl fun node hnode ↦ ?_
  rw [eval_mul, eval_C, mul_comm, Lagrange.basis, eval_prod]
  congr 1
  refine Finset.prod_congr rfl fun other hother ↦ ?_
  have hne : place other - place node ≠ 0 := by
    rw [sub_ne_zero]
    intro hsame
    exact (Finset.mem_erase.mp hother).1 (hplace (Finset.mem_of_mem_erase hother) hnode hsame)
  have hne' : place node - place other ≠ 0 := by
    rw [← neg_sub]
    exact neg_ne_zero.mpr hne
  simp only [Lagrange.basisDivisor, eval_mul, eval_C, eval_sub, eval_X, zero_sub]
  field_simp
  ring

/-- The Lagrange coefficient of a node at zero. -/
def lagrangeAtZero (nodes : Finset Index) (place : Index → F) (node : Index) : F :=
  ∏ other ∈ nodes.erase node, place other / (place other - place node)

theorem lagrangeAtZero_ne_zero (hplace : Set.InjOn place nodes)
    (hzero : ∀ node ∈ nodes, place node ≠ 0) {node} (hnode : node ∈ nodes) :
    lagrangeAtZero nodes place node ≠ 0 := by
  refine Finset.prod_ne_zero_iff.mpr fun other hother ↦ ?_
  rw [Finset.mem_erase] at hother
  refine div_ne_zero (hzero other hother.2) (sub_ne_zero.mpr fun hsame ↦ ?_)
  exact hother.1 (hplace hother.2 hnode hsame)

end Lagrange

/-! ### Sharings -/

/-- A secret shared by a polynomial of degree below the threshold. -/
def Sharing (F : Type) [Field F] (threshold : ℕ) : Type := degreeLT F threshold

namespace Sharing

variable {F : Type} [Field F] {threshold : ℕ}

noncomputable instance : AddCommGroup (Sharing F threshold) :=
  inferInstanceAs (AddCommGroup (degreeLT F threshold))

noncomputable instance : Module F (Sharing F threshold) :=
  inferInstanceAs (Module F (degreeLT F threshold))

variable (sharing : Sharing F threshold)

/-- The share of a place. -/
noncomputable def share (place : F) : F :=
  sharing.1.eval place

noncomputable def secret : F := sharing.share 0

variable (first second : Sharing F threshold) (factor place : F)

@[simp] theorem share_add : (first + second).share place = first.share place + second.share place :=
  eval_add

@[simp] theorem share_sub : (first - second).share place = first.share place - second.share place :=
  eval_sub ..

@[simp] theorem share_smul : (factor • first).share place = factor * first.share place :=
  eval_smul ..

@[simp] theorem secret_add : (first + second).secret = first.secret + second.secret :=
  share_add ..

@[simp] theorem secret_sub : (first - second).secret = first.secret - second.secret :=
  share_sub ..

@[simp] theorem secret_smul : (factor • first).secret = factor * first.secret := share_smul ..

/-- The weighted shares of enough places add up to the secret. -/
theorem sum_lagrangeAtZero_mul_share {Index : Type} [DecidableEq Index] {nodes : Finset Index}
    {place : Index → F} (hplace : Set.InjOn place nodes)
    (sharing : Sharing F threshold) (hcard : threshold ≤ nodes.card) :
    ∑ node ∈ nodes, lagrangeAtZero nodes place node * sharing.share (place node) =
      sharing.secret := by
  have hdegree : sharing.1.degree < nodes.card :=
    (mem_degreeLT.mp sharing.2).trans_le (by exact_mod_cast hcard)
  exact sum_lagrange_zero hplace hdegree

end Sharing

end NearMpc.Library
