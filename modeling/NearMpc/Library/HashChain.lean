import Mathlib

/-!
# Hash chains

A register that is only ever extended: its new value is computed from the old value and one item.
`value` is the register after a list of items, `links` are the pairs of old value and item that the
extensions were computed from.

If the extension has no collision among the links of two chains and never gives a start value back,
the register determines the start and the items (`eq_of_value_eq`).
-/

set_option autoImplicit false

namespace NearMpc.Library.HashChain

variable {State Item : Type} (extend : State → Item → State)

/-- The register after the items, oldest first. -/
def value (start : State) (items : List Item) : State := items.foldl extend start

/-- What the extensions are computed from. -/
def links : State → List Item → List (State × Item)
  | _, [] => []
  | start, item :: rest => (start, item) :: links (extend start item) rest

variable {extend} {start : State} {items first second : List Item} {item : Item}

theorem value_append_singleton :
    value extend start (items ++ [item]) = extend (value extend start items) item := by
  rw [value, List.foldl_append, List.foldl_cons, List.foldl_nil, value]

theorem links_append_singleton :
    links extend start (items ++ [item]) =
      links extend start items ++ [(value extend start items, item)] := by
  induction items generalizing start with
  | nil => rfl
  | cons _ _ ih => rw [List.cons_append, links, ih, links, List.cons_append]; rfl

theorem mem_links_append_singleton :
    (value extend start items, item) ∈ links extend start (items ++ [item]) := by
  rw [links_append_singleton]
  exact List.mem_append_right _ (List.mem_singleton_self _)

/-- Two chains that end in the same value have the same start and the same items. -/
theorem eq_of_value_eq {other}
    (hinjective : ∀ link ∈ links extend start first, ∀ next ∈ links extend other second,
      extend link.1 link.2 = extend next.1 next.2 → link = next)
    (hfirst : ∀ link ∈ links extend start first, extend link.1 link.2 ≠ other)
    (hsecond : ∀ link ∈ links extend other second, extend link.1 link.2 ≠ start)
    (hvalue : value extend start first = value extend other second) :
    start = other ∧ first = second := by
  -- the last links are equal, so the chains without them end in the same value
  induction first using List.reverseRecOn generalizing second with
  | nil =>
    cases second using List.reverseRecOn with
    | nil => exact ⟨hvalue, rfl⟩
    | append_singleton =>
      rw [value_append_singleton] at hvalue
      exact absurd hvalue.symm (hsecond _ mem_links_append_singleton)
  | append_singleton _ _ ih =>
    cases second using List.reverseRecOn with
    | nil =>
      rw [value_append_singleton] at hvalue
      exact absurd hvalue (hfirst _ mem_links_append_singleton)
    | append_singleton =>
      rw [value_append_singleton, value_append_singleton] at hvalue
      have hlast := hinjective _ mem_links_append_singleton _ mem_links_append_singleton hvalue
      obtain ⟨hbefore, rfl⟩ := Prod.mk.inj hlast
      simp only [links_append_singleton, List.forall_mem_append] at hinjective hfirst hsecond
      obtain ⟨hstart, rfl⟩ := ih (fun link hlink ↦ (hinjective.1 link hlink).1) hfirst.1 hsecond.1
        hbefore
      exact ⟨hstart, rfl⟩

end NearMpc.Library.HashChain
