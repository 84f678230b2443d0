import Mathlib

/-!
# Lineages

Nodes are numbered, and a partial function gives every node its parent. When a parent always has a
smaller number than its child (`Descending`), following the parents from a node ends after finitely
many steps. `lineage` is the list of the nodes on the way, the node itself first.

A lineage is strictly descending, and whatever is left of it after some of its nodes is the lineage
of the first node that is left (`dropWhile_lineage`, `exists_lineage_eq_append`). Two lineages that
meet therefore go on together, and going over from one to the other changes only the nodes before
the place where they meet (`mem_lineage_iff_switch`).
-/

set_option autoImplicit false

namespace NearMpc.Library

/-- Every parent has a smaller number than its child. -/
def Descending (parent : ℕ → Option ℕ) : Prop :=
  ∀ node above, parent node = some above → above < node

/-- The given node, its parent, the parent of that, and so on, at most `fuel` of them. -/
def climb (parent : ℕ → Option ℕ) : ℕ → Option ℕ → List ℕ
  | 0, _ => []
  | _ + 1, none => []
  | fuel + 1, some node => node :: climb parent fuel (parent node)

/-- A node and all its ancestors, nearest first. -/
def lineage (parent : ℕ → Option ℕ) (node : ℕ) : List ℕ := climb parent (node + 1) (some node)

/-- The lineage of a node, or nothing. -/
def lineage? (parent : ℕ → Option ℕ) : Option ℕ → List ℕ
  | none => []
  | some node => lineage parent node

variable {parent : ℕ → Option ℕ}

@[simp] theorem lineage?_none : lineage? parent none = [] := rfl

@[simp] theorem lineage?_some (node : ℕ) : lineage? parent (some node) = lineage parent node := rfl

theorem climb_none (fuel : ℕ) : climb parent fuel none = [] := by
  cases fuel <;> rfl

theorem climb_eq_lineage (hdescend : Descending parent) :
    ∀ (fuel node : ℕ), node < fuel → climb parent fuel (some node) = lineage parent node := by
  intro fuel
  induction fuel using Nat.strong_induction_on with
  | _ fuel ih =>
    intro node _
    obtain ⟨fuel, rfl⟩ : ∃ less, fuel = less + 1 := ⟨fuel - 1, by omega⟩
    rw [lineage, climb, climb]
    congr 1
    cases hparent : parent node with
    | none => rw [climb_none, climb_none]
    | some above =>
      have habove := hdescend node above hparent
      rw [ih fuel (by omega) above (by omega)]
      rcases Nat.lt_or_ge node fuel with hless | hequal
      · rw [ih node (by omega) above habove]
      · obtain rfl : node = fuel := by omega
        rw [ih node (by omega) above habove]

/-- A lineage is its node followed by the lineage of the parent. -/
theorem lineage_eq (hdescend : Descending parent) (node : ℕ) :
    lineage parent node = node :: lineage? parent (parent node) := by
  rw [lineage, climb]
  cases hparent : parent node with
  | none => rw [climb_none, lineage?_none]
  | some above =>
    rw [climb_eq_lineage hdescend node above (hdescend node above hparent), lineage?_some]

theorem mem_lineage_self (node : ℕ) : node ∈ lineage parent node := by
  rw [lineage, climb]
  exact List.mem_cons_self

section

variable (hdescend : Descending parent)
include hdescend

variable {node ancestor : ℕ}

theorem mem_lineage_iff :
    ancestor ∈ lineage parent node ↔
      ancestor = node ∨ ∃ above, parent node = some above ∧ ancestor ∈ lineage parent above := by
  rw [lineage_eq hdescend, List.mem_cons]
  cases parent node <;> simp

/-- The members of a lineage are what the parents lead to. -/
theorem mem_lineage_iff_reflTransGen :
    ancestor ∈ lineage parent node ↔
      Relation.ReflTransGen (fun child above ↦ parent child = some above) node ancestor := by
  constructor
  · intro hmem
    induction node using Nat.strong_induction_on with
    | _ node ih =>
      rcases (mem_lineage_iff hdescend).mp hmem with rfl | ⟨above, hparent, habove⟩
      · exact .refl
      · exact .head hparent (ih above (hdescend node above hparent) habove)
  · intro hchain
    induction hchain using Relation.ReflTransGen.head_induction_on with
    | refl => exact mem_lineage_self ancestor
    | head hparent _ ih => exact (mem_lineage_iff hdescend).mpr (.inr ⟨_, hparent, ih⟩)

theorem mem_lineage_trans {first middle last} (hfirst : first ∈ lineage parent middle)
    (hmiddle : middle ∈ lineage parent last) : first ∈ lineage parent last := by
  rw [mem_lineage_iff_reflTransGen hdescend] at hfirst hmiddle ⊢
  exact hmiddle.trans hfirst

theorem le_of_mem_lineage (hmem : ancestor ∈ lineage parent node) : ancestor ≤ node := by
  rw [mem_lineage_iff_reflTransGen hdescend] at hmem
  induction hmem with
  | refl => exact le_rfl
  | tail _ hparent ih => exact (hdescend _ _ hparent).le.trans ih

theorem lt_of_mem_lineage? (hmem : ancestor ∈ lineage? parent (parent node)) : ancestor < node := by
  cases hparent : parent node with
  | none => simp [hparent] at hmem
  | some above =>
    rw [hparent, lineage?_some] at hmem
    exact (le_of_mem_lineage hdescend hmem).trans_lt (hdescend node above hparent)

theorem pairwise_lineage (node : ℕ) : (lineage parent node).Pairwise (· > ·) := by
  induction node using Nat.strong_induction_on with
  | _ node ih =>
    rw [lineage_eq hdescend]
    refine List.pairwise_cons.mpr ⟨fun _ ↦ lt_of_mem_lineage? hdescend, ?_⟩
    cases hparent : parent node with
    | none => exact .nil
    | some above => exact ih above (hdescend node above hparent)

theorem nodup_lineage (node : ℕ) : (lineage parent node).Nodup :=
  (pairwise_lineage hdescend node).imp fun hgreater ↦ (Nat.ne_of_lt hgreater).symm

/-- Every node of a lineage is followed by its parent. -/
theorem isChain_lineage (node : ℕ) :
    (lineage parent node).IsChain fun child above ↦ parent child = some above := by
  induction node using Nat.strong_induction_on with
  | _ node ih =>
    rw [lineage_eq hdescend]
    cases hparent : parent node with
    | none => exact .singleton node
    | some above =>
      have hrest := ih above (hdescend node above hparent)
      rw [lineage_eq hdescend above] at hrest
      rw [lineage?_some, lineage_eq hdescend above]
      exact .cons_cons hparent hrest

end

/-! ### Parts of a lineage -/

variable {first second : ℕ → Bool} {nodes : List ℕ}

theorem takeWhile_congr_of_mem (hsame : ∀ node ∈ nodes, first node = second node) :
    nodes.takeWhile first = nodes.takeWhile second := by
  induction nodes with
  | nil => rfl
  | cons _ _ ih =>
    rw [List.forall_mem_cons] at hsame
    rw [List.takeWhile_cons, List.takeWhile_cons, hsame.1, ih hsame.2]

theorem dropWhile_congr_of_mem (hsame : ∀ node ∈ nodes, first node = second node) :
    nodes.dropWhile first = nodes.dropWhile second := by
  induction nodes with
  | nil => rfl
  | cons _ _ ih =>
    rw [List.forall_mem_cons] at hsame
    rw [List.dropWhile_cons, List.dropWhile_cons, hsame.1, ih hsame.2]

section

variable (hdescend : Descending parent)
include hdescend

variable (skip : ℕ → Bool) (node : ℕ)

/-- What is left of a lineage is a lineage. -/
theorem dropWhile_lineage :
    (lineage parent node).dropWhile skip =
      lineage? parent ((lineage parent node).dropWhile skip).head? := by
  induction node using Nat.strong_induction_on with
  | _ node ih =>
    rw [lineage_eq hdescend, List.dropWhile_cons]
    split_ifs with hskip
    · cases hparent : parent node with
      | none => simp
      | some above => exact ih above (hdescend node above hparent)
    · rw [List.head?_cons, lineage?_some, ← lineage_eq hdescend]

/-- A walk up a lineage passes some nodes and stops at the first that it does not skip. -/
theorem exists_lineage_eq_takeWhile_append :
    ∃ stop?, lineage parent node =
        (lineage parent node).takeWhile skip ++ lineage? parent stop? ∧
      ∀ stop ∈ stop?, skip stop = false ∧ stop ∈ lineage parent node := by
  refine ⟨((lineage parent node).dropWhile skip).head?, ?_, ?_⟩
  · rw [← dropWhile_lineage hdescend, List.takeWhile_append_dropWhile]
  · intro stop hstop
    have hne : (lineage parent node).dropWhile skip ≠ [] := by
      intro hnil
      rw [hnil] at hstop
      exact Option.not_mem_none stop hstop
    have hmem := List.mem_of_mem_head? hstop
    rw [Option.mem_def, List.head?_eq_some_head hne, Option.some.injEq] at hstop
    subst hstop
    exact ⟨List.head_dropWhile_not skip hne, (List.dropWhile_sublist skip).subset hmem⟩

/-- A lineage down to one of its members. -/
theorem exists_lineage_eq_append {node ancestor} (hmem : ancestor ∈ lineage parent node) :
    lineage parent node =
      (lineage parent node).takeWhile (fun other ↦ other != ancestor) ++
        lineage parent ancestor := by
  set skip : ℕ → Bool := fun other ↦ other != ancestor
  have hne : (lineage parent node).dropWhile skip ≠ [] := by
    intro hnil
    have hskip := List.dropWhile_eq_nil_iff.mp hnil ancestor hmem
    simp [skip] at hskip
  have hhead : ((lineage parent node).dropWhile skip).head? = some ancestor := by
    rw [List.head?_eq_some_head hne]
    have hstop := List.head_dropWhile_not skip hne
    simpa [skip] using hstop
  calc lineage parent node
      = (lineage parent node).takeWhile skip ++ (lineage parent node).dropWhile skip :=
        List.takeWhile_append_dropWhile.symm
    _ = (lineage parent node).takeWhile skip ++ lineage parent ancestor := by
        rw [dropWhile_lineage hdescend, hhead, lineage?_some]

/-- Parents that agree on a lineage give the same lineage. -/
theorem lineage_congr {other : ℕ → Option ℕ} (hother : Descending other) {node}
    (hagree : ∀ ancestor ∈ lineage parent node, other ancestor = parent ancestor) :
    lineage other node = lineage parent node := by
  induction node using Nat.strong_induction_on with
  | _ node ih =>
    have hnode := hagree node (mem_lineage_self node)
    rw [lineage_eq hdescend, lineage_eq hother, hnode]
    cases hparent : parent node with
    | none => rfl
    | some above =>
      rw [lineage?_some, lineage?_some, ih above (hdescend node above hparent)]
      intro ancestor hancestor
      exact hagree ancestor ((mem_lineage_iff hdescend).mpr (.inr ⟨above, hparent, hancestor⟩))

/-- Going over from an old lineage to a new one: the nodes of the new lineage before the two meet
are added, those of the old lineage before that place are removed. -/
theorem mem_lineage_iff_switch {old? new} {skip : ℕ → Bool}
    (hskip : ∀ node ∈ lineage parent new, skip node = false ↔ node ∈ lineage? parent old?)
    (node : ℕ) :
    node ∈ lineage parent new ↔
      (node ∈ (lineage parent new).takeWhile skip ∨ node ∈ lineage? parent old?) ∧
        node ∉ (lineage? parent old?).takeWhile fun other ↦
          some other != ((lineage parent new).dropWhile skip).head? := by
  have hsplit : node ∈ lineage parent new ↔ node ∈ (lineage parent new).takeWhile skip ∨
      node ∈ lineage? parent ((lineage parent new).dropWhile skip).head? := by
    rw [← dropWhile_lineage hdescend, ← List.mem_append, List.takeWhile_append_dropWhile]
  have hfresh : ∀ other ∈ (lineage parent new).takeWhile skip, other ∉ lineage? parent old? := by
    intro other hother hold
    have hstop := (hskip other ((List.takeWhile_sublist skip).subset hother)).mpr hold
    rw [List.mem_takeWhile_imp hother] at hstop
    exact Bool.noConfusion hstop
  have hgone : ∀ {keep : ℕ → Bool}, node ∈ (lineage? parent old?).takeWhile keep →
      node ∈ lineage? parent old? := fun hmem ↦ (List.takeWhile_sublist _).subset hmem
  rw [hsplit]
  cases hmeet : ((lineage parent new).dropWhile skip).head? with
  | none =>
    -- The lineages do not meet: all of the old one goes.
    have hall : (lineage? parent old?).takeWhile (fun other ↦ some other != none) =
        lineage? parent old? := by
      rw [List.takeWhile_eq_self_iff]
      simp
    rw [hall, lineage?_none]
    constructor
    · rintro (hnew | hnone)
      · exact ⟨.inl hnew, hfresh node hnew⟩
      · simp at hnone
    · rintro ⟨hnew | hold, hkept⟩
      · exact .inl hnew
      · exact absurd hold hkept
  | some common =>
    have hcommon : common ∈ lineage parent new := by
      have hmem := List.mem_of_mem_head? (Option.mem_def.mpr hmeet)
      exact (List.dropWhile_sublist skip).subset hmem
    have hstop : skip common = false := by
      have hne : (lineage parent new).dropWhile skip ≠ [] := by
        intro hnil
        simp [hnil] at hmeet
      rw [List.head?_eq_some_head hne, Option.some.injEq] at hmeet
      rw [← hmeet]
      exact List.head_dropWhile_not skip hne
    obtain ⟨old, rfl⟩ : ∃ old, old? = some old := by
      have hold := (hskip common hcommon).mp hstop
      cases old? with
      | none => simp at hold
      | some old => exact ⟨old, rfl⟩
    have hold : lineage? parent (some old) =
        (lineage? parent (some old)).takeWhile (fun other ↦ some other != some common) ++
          lineage parent common := by
      have hbne : (fun other : ℕ ↦ some other != some common) = fun other ↦ other != common := by
        funext other
        rfl
      rw [hbne]
      exact exists_lineage_eq_append hdescend ((hskip common hcommon).mp hstop)
    have hdisjoint : ∀ other ∈ lineage parent common,
        other ∉ (lineage? parent (some old)).takeWhile fun other ↦ some other != some common := by
      have hnodup : (lineage? parent (some old)).Nodup := nodup_lineage hdescend old
      rw [hold] at hnodup
      exact fun other hother hmem ↦ (List.nodup_append.mp hnodup).2.2 other hmem other hother rfl
    rw [lineage?_some]
    constructor
    · rintro (hnew | hshared)
      · exact ⟨.inl hnew, fun hmem ↦ hfresh node hnew (hgone hmem)⟩
      · refine ⟨.inr ?_, hdisjoint node hshared⟩
        rw [hold]
        exact List.mem_append_right _ hshared
    · rintro ⟨hnew | hmem, hkept⟩
      · exact .inl hnew
      · rw [hold, List.mem_append] at hmem
        exact .inr (hmem.resolve_left hkept)

end

end NearMpc.Library
