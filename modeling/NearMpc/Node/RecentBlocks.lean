import NearMpc.Library.Lineage
import NearMpc.Node.Primitives

/-!
# The tracker of recent blocks

The tree of recent blocks that the request queues consult. Follows
`requests/recent_blocks_tracker.rs`.

The source shares its nodes through `Arc` and changes them in place. Here the nodes lie in a heap
(`Heap`), a reference to a node is its place in it, a natural number, and references are given out
in ascending order and never again. The loops that follow parents and the recursion over children
carry fuel, one unit more than there are nodes: a loop that has not ended by then counts as
panicked.

A window holds at least one block, so that the additions of one to a height that lies at least one
below the largest height do not overflow.

The equations `finalizeFrom_eq`, `markCanonical_eq` and `unmarkCanonical_eq` say what the loops do
in terms of the lineage of the node they start from, and `mem_closestDescendants` what the recursion
collects.
-/

set_option autoImplicit false

namespace NearMpc.Node

open Library Library.Outcome

abbrev CryptoHash := BitVec 256

/-- A block of the tree. -/
structure BlockNode where
  hash : CryptoHash
  height : ℕ
  canonical : Bool
  isFinal : Bool
  parent : Option ℕ
  children : List ℕ
deriving DecidableEq, Repr

namespace BlockNode

/-- The node marked as final. -/
def finalized (node : BlockNode) : BlockNode := { node with isFinal := true }

/-- The node with the given mark. -/
def markedCanonical (canonical : Bool) (node : BlockNode) : BlockNode := { node with canonical }

/-- The node without a parent. -/
def detached (node : BlockNode) : BlockNode := { node with parent := none }

end BlockNode

/-- The nodes by reference. -/
abbrev Heap := ℕ → BlockNode

namespace Heap

/-- A heap nothing has been stored in. -/
def empty : Heap := fun _ ↦
  { hash := 0, height := 0, canonical := false, isFinal := false, parent := none, children := [] }

variable (nodes : Heap) (ref : ℕ)

def modify (change : BlockNode → BlockNode) : Heap :=
  Function.update nodes ref (change (nodes ref))

def parent : Option ℕ := (nodes ref).parent

end Heap

/-- What the tracker reads of a block. -/
structure BlockViewLite where
  hash : CryptoHash
  height : ℕ
  prevHash : CryptoHash
  lastFinalBlock : CryptoHash
deriving DecidableEq, Repr

inductive CheckBlockResult where
  | olderThanRecentWindow
  | recentAndFinal
  | notIncluded
  | optimisticAndCanonical
  | optimisticButNotCanonical
  | unknown
deriving DecidableEq, Repr

structure RecentBlocksTracker (Content : Type) where
  windowSize : ℕ+
  nodes : Heap
  /-- The number of references given out so far, which is also the next one. -/
  allocated : ℕ
  rootChildren : List ℕ
  canonicalHead : Option ℕ
  finalHead : Option ℕ
  maximumHeightAvailable : ℕ
  hashToNode : CryptoHash → Option ℕ
  nodeToContent : CryptoHash → Option Content

/-! ### The loops -/

/-- The loop of `maybe_update_final_head`: marks a node and its ancestors as final up to the first
that already is. The nodes it marked come nearest first. -/
def finalizeFrom : ℕ → Heap → ℕ → NodeResult (Heap × List ℕ)
  | 0, _, _ => .panicked
  | fuel + 1, nodes, ref =>
      if (nodes ref).isFinal then .ok (nodes, [])
      else
        let nodes := nodes.modify ref .finalized
        match (nodes ref).parent with
        | none => .ok (nodes, [ref])
        | some above => do
            let (nodes, others) ← finalizeFrom fuel nodes above
            return (nodes, ref :: others)

/-- The first loop of `update_canonical_head`: marks a node and its ancestors as canonical up to the
first that already is, which it returns. -/
def markCanonical : ℕ → Heap → Option ℕ → NodeResult (Heap × Option ℕ)
  | _, nodes, none => .ok (nodes, none)
  | 0, _, some _ => .panicked
  | fuel + 1, nodes, some ref =>
      if (nodes ref).canonical then .ok (nodes, some ref)
      else
        let nodes := nodes.modify ref (.markedCanonical true)
        markCanonical fuel nodes (nodes ref).parent

/-- The second loop of `update_canonical_head`: takes the mark from a node and its ancestors before
the common ancestor. -/
def unmarkCanonical (commonAncestor : Option ℕ) : ℕ → Heap → Option ℕ → NodeResult Heap
  | _, nodes, none => .ok nodes
  | 0, _, some _ => .panicked
  | fuel + 1, nodes, some ref =>
      if some ref = commonAncestor then .ok nodes
      else
        let nodes := nodes.modify ref (.markedCanonical false)
        unmarkCanonical commonAncestor fuel nodes (nodes ref).parent

/-- Adds the closest descendants of a node that have at least the given height to the first list,
and the nodes above them to the second. -/
def closestDescendantsWithHeightAtLeast (nodes : Heap) (height : ℕ) :
    ℕ → List ℕ × List ℕ → ℕ → NodeResult (List ℕ × List ℕ)
  | 0, _, _ => .panicked
  | fuel + 1, (descendants, oldNodes), ref =>
      if height ≤ (nodes ref).height then .ok (descendants ++ [ref], oldNodes)
      else
        (nodes ref).children.foldlM (closestDescendantsWithHeightAtLeast nodes height fuel)
          (descendants, oldNodes ++ [ref])

/-! ### What the loops do -/

namespace Heap

/-- Changes all the given nodes. -/
def modifyAll (nodes : Heap) (refs : List ℕ) (change : BlockNode → BlockNode) : Heap :=
  fun ref ↦ if ref ∈ refs then change (nodes ref) else nodes ref

variable {change : BlockNode → BlockNode} {nodes : Heap} {refs : List ℕ} {ref : ℕ}

theorem modifyAll_of_mem (hmem : ref ∈ refs) :
    nodes.modifyAll refs change ref = change (nodes ref) :=
  if_pos hmem

theorem modifyAll_of_not_mem (hnotMem : ref ∉ refs) :
    nodes.modifyAll refs change ref = nodes ref := if_neg hnotMem

@[simp] theorem modifyAll_nil (nodes : Heap) (change : BlockNode → BlockNode) :
    nodes.modifyAll [] change = nodes := by
  funext ref
  exact modifyAll_of_not_mem List.not_mem_nil

/-- A change that may be made twice can be made to one node after the other. -/
theorem modifyAll_cons (nodes : Heap) (ref : ℕ) (refs : List ℕ)
    (change : BlockNode → BlockNode) (hidempotent : ∀ node, change (change node) = change node) :
    nodes.modifyAll (ref :: refs) change = (nodes.modify ref change).modifyAll refs change := by
  funext other
  by_cases hother : other = ref
  · subst hother
    by_cases hmem : other ∈ refs <;> simp [modifyAll, modify, hmem, hidempotent]
  · by_cases hmem : other ∈ refs <;> simp [modifyAll, modify, hmem, hother]

theorem foldl_modify (nodes : Heap) (refs : List ℕ) (change : BlockNode → BlockNode)
    (hidempotent : ∀ node, change (change node) = change node) :
    refs.foldl (fun nodes ref ↦ nodes.modify ref change) nodes = nodes.modifyAll refs change := by
  induction refs generalizing nodes with
  | nil => exact (modifyAll_nil nodes change).symm
  | cons ref refs ih => rw [List.foldl_cons, ih, modifyAll_cons nodes ref refs change hidempotent]

/-- A change that leaves the parents alone. -/
theorem parent_modify {nodes : Heap} {ref : ℕ}
    (hparent : ∀ node, (change node).parent = node.parent) :
    (nodes.modify ref change).parent = nodes.parent := by
  funext other
  by_cases hother : other = ref
  · subst hother
    simp [modify, parent, hparent]
  · simp [modify, parent, hother]

end Heap

section Walks

variable {nodes : Heap} {ref : ℕ}

/-- A walk that passes a node goes on above it, and sees no change to the node it passed. -/
theorem takeWhile_lineage_modify (hdescend : Descending nodes.parent)
    (change : BlockNode → BlockNode) (skip : ℕ → BlockNode → Bool)
    (hskip : skip ref (nodes ref) = true) :
    (lineage nodes.parent ref).takeWhile (fun other ↦ skip other (nodes other)) =
        ref :: (lineage? nodes.parent (nodes.parent ref)).takeWhile
          (fun other ↦ skip other (nodes.modify ref change other)) ∧
      (lineage nodes.parent ref).dropWhile (fun other ↦ skip other (nodes other)) =
        (lineage? nodes.parent (nodes.parent ref)).dropWhile
          fun other ↦ skip other (nodes.modify ref change other) := by
  have hsame : ∀ other ∈ lineage? nodes.parent (nodes.parent ref),
      skip other (nodes.modify ref change other) = skip other (nodes other) := by
    intro _ hother
    rw [Heap.modify, Function.update_of_ne (lt_of_mem_lineage? hdescend hother).ne]
  rw [takeWhile_congr_of_mem hsame, dropWhile_congr_of_mem hsame, lineage_eq hdescend]
  simp [hskip]

theorem finalizeFrom_eq (fuel : ℕ) (nodes : Heap) (ref : ℕ)
    (hdescend : Descending nodes.parent) (hfuel : ref < fuel) :
    finalizeFrom fuel nodes ref =
      .ok (nodes.modifyAll
          ((lineage nodes.parent ref).takeWhile fun other ↦ !(nodes other).isFinal)
          .finalized,
        (lineage nodes.parent ref).takeWhile fun other ↦ !(nodes other).isFinal) := by
  induction fuel generalizing nodes ref with
  | zero => omega
  | succ _ ih =>
    rw [finalizeFrom]
    cases hfinal : (nodes ref).isFinal with
    | true => simp [lineage_eq hdescend, hfinal]
    | false =>
      have hmarked : (nodes.modify ref .finalized).parent = nodes.parent :=
        Heap.parent_modify fun _ ↦ rfl
      have hread : (nodes.modify ref _ ref).parent = _ := congrFun hmarked ref
      rw [(takeWhile_lineage_modify hdescend .finalized (fun _ node ↦ !node.isFinal)
        (by simp [hfinal])).1, Heap.modifyAll_cons _ _ _ BlockNode.finalized fun _ ↦ rfl]
      simp only [Bool.false_eq_true, ↓reduceIte, hread]
      cases habove : nodes.parent ref with
      | none => simp
      | some above =>
        have hlt := hdescend ref above habove
        dsimp only
        rw [ih _ above (hmarked ▸ hdescend) (by omega), hmarked]
        rfl

theorem markCanonical_eq (fuel : ℕ) (nodes : Heap) (ref : ℕ)
    (hdescend : Descending nodes.parent) (hfuel : ref < fuel) :
    markCanonical fuel nodes (some ref) =
      .ok (nodes.modifyAll
          ((lineage nodes.parent ref).takeWhile fun other ↦ !(nodes other).canonical)
          (.markedCanonical true),
        ((lineage nodes.parent ref).dropWhile fun other ↦ !(nodes other).canonical).head?) := by
  induction fuel generalizing nodes ref with
  | zero => omega
  | succ _ ih =>
    rw [markCanonical]
    cases hcanonical : (nodes ref).canonical with
    | true => simp [lineage_eq hdescend, hcanonical]
    | false =>
      have hmarked : (nodes.modify ref (.markedCanonical true)).parent = nodes.parent :=
        Heap.parent_modify fun _ ↦ rfl
      have hread : (nodes.modify ref _ ref).parent = _ := congrFun hmarked ref
      obtain ⟨htake, hdrop⟩ := takeWhile_lineage_modify hdescend (.markedCanonical true)
        (fun _ node ↦ !node.canonical) (by rw [hcanonical]; rfl)
      rw [htake, hdrop, Heap.modifyAll_cons _ _ _ (BlockNode.markedCanonical true) fun _ ↦ rfl]
      simp only [Bool.false_eq_true, ↓reduceIte, hread]
      cases habove : nodes.parent ref with
      | none => simp [markCanonical]
      | some above =>
        have hlt := hdescend ref above habove
        rw [ih _ above (hmarked ▸ hdescend) (by omega), hmarked]
        rfl

theorem unmarkCanonical_eq (commonAncestor : Option ℕ) (fuel : ℕ) (nodes : Heap) (ref? : Option ℕ)
    (hdescend : Descending nodes.parent) (hfuel : ∀ ref ∈ ref?, ref < fuel) :
    unmarkCanonical commonAncestor fuel nodes ref? =
      .ok (nodes.modifyAll
        ((lineage? nodes.parent ref?).takeWhile fun other ↦ some other != commonAncestor)
        (.markedCanonical false)) := by
  induction fuel generalizing nodes ref? with
  | zero =>
    cases ref? with
    | none => simp [unmarkCanonical]
    | some ref => exact absurd (hfuel ref rfl) (Nat.not_lt_zero ref)
  | succ _ ih =>
    cases ref? with
    | none => simp [unmarkCanonical]
    | some ref =>
      rw [lineage?_some, unmarkCanonical]
      by_cases hcommon : some ref = commonAncestor
      · simp [lineage_eq hdescend, hcommon]
      · have hmarked : (nodes.modify ref (.markedCanonical false)).parent = nodes.parent :=
          Heap.parent_modify fun _ ↦ rfl
        have hread : (nodes.modify ref _ ref).parent = _ := congrFun hmarked ref
        rw [(takeWhile_lineage_modify hdescend (.markedCanonical false)
          (fun other _ ↦ some other != commonAncestor) (by simpa using hcommon)).1,
          Heap.modifyAll_cons _ _ _ (BlockNode.markedCanonical false) fun _ ↦ rfl, if_neg hcommon]
        simp only [hread]
        rw [ih _ _ (hmarked ▸ hdescend), hmarked]
        intro above habove
        have hlt := hdescend ref above habove
        have href := hfuel ref rfl
        omega

end Walks

namespace Heap

variable (nodes : Heap)

/-- The second node is a child of the first. -/
def Child (ref child : ℕ) : Prop := child ∈ (nodes ref).children

/-- The second node is a child of the first, which is too low. -/
def LowChild (height ref child : ℕ) : Prop :=
  (nodes ref).height < height ∧ nodes.Child ref child

/-- The second node is reached from the first through nodes that are too low. -/
def Exposed (height ref descendant : ℕ) : Prop :=
  Relation.ReflTransGen (nodes.LowChild height) ref descendant

/-- The lists hold the nodes exposed below the given ones, those that are high enough and those that
are not. -/
structure Collected (nodes : Heap) (height : ℕ) (refs descendants oldNodes : List ℕ) : Prop where
  mem_descendants : ∀ ref, ref ∈ descendants ↔
    (∃ above ∈ refs, nodes.Exposed height above ref) ∧ height ≤ (nodes ref).height
  mem_oldNodes : ∀ ref, ref ∈ oldNodes ↔
    (∃ above ∈ refs, nodes.Exposed height above ref) ∧ (nodes ref).height < height

variable {nodes : Heap} {height limit : ℕ}

theorem Collected.nil : nodes.Collected height [] [] [] where
  mem_descendants := by simp
  mem_oldNodes := by simp

variable {ref : ℕ}

theorem Collected.append {refs first firstOld second secondOld}
    (hfirst : nodes.Collected height [ref] first firstOld)
    (hsecond : nodes.Collected height refs second secondOld) :
    nodes.Collected height (ref :: refs) (first ++ second) (firstOld ++ secondOld) where
  mem_descendants := by
    intro _
    rw [List.mem_append, hfirst.mem_descendants, hsecond.mem_descendants]
    simp only [List.mem_singleton, exists_eq_left, List.exists_mem_cons_iff, or_and_right]
  mem_oldNodes := by
    intro _
    rw [List.mem_append, hfirst.mem_oldNodes, hsecond.mem_oldNodes]
    simp only [List.mem_singleton, exists_eq_left, List.exists_mem_cons_iff, or_and_right]

/-- A node that is high enough exposes nothing else. -/
theorem Collected.high (hhigh : height ≤ (nodes ref).height) :
    nodes.Collected height [ref] [ref] [] := by
  have hexposed : ∀ other, nodes.Exposed height ref other ↔ ref = other := by
    intro _
    rw [Exposed, Relation.ReflTransGen.cases_head_iff]
    refine ⟨fun hcases ↦ hcases.elim id ?_, .inl⟩
    rintro ⟨_, ⟨hlow, _⟩, _⟩
    exact absurd hlow (not_lt.mpr hhigh)
  constructor
  · intro _
    simp only [List.mem_singleton, exists_eq_left, hexposed]
    refine ⟨?_, fun hboth ↦ hboth.1.symm⟩
    rintro rfl
    exact ⟨rfl, hhigh⟩
  · intro _
    simp only [List.not_mem_nil, List.mem_singleton, exists_eq_left, hexposed, false_iff, not_and,
      not_lt]
    exact fun heq ↦ heq ▸ hhigh

/-- A node that is too low exposes what its children expose. -/
theorem Collected.low {descendants oldNodes} (hlow : (nodes ref).height < height)
    (hchildren : nodes.Collected height (nodes ref).children descendants oldNodes) :
    nodes.Collected height [ref] descendants (ref :: oldNodes) := by
  have hexposed : ∀ other, nodes.Exposed height ref other ↔
      ref = other ∨ ∃ child ∈ (nodes ref).children, nodes.Exposed height child other := by
    intro _
    rw [Exposed, Relation.ReflTransGen.cases_head_iff]
    simp [LowChild, Child, Exposed, hlow]
  constructor
  · intro _
    rw [hchildren.mem_descendants]
    simp only [List.mem_singleton, exists_eq_left, hexposed]
    refine ⟨fun hboth ↦ ⟨.inr hboth.1, hboth.2⟩, ?_⟩
    rintro ⟨rfl | hbelow, hhigh⟩
    · exact absurd hlow (not_lt.mpr hhigh)
    · exact ⟨hbelow, hhigh⟩
  · intro _
    rw [List.mem_cons, hchildren.mem_oldNodes]
    simp only [List.mem_singleton, exists_eq_left, hexposed]
    constructor
    · rintro (rfl | ⟨hbelow, hless⟩)
      · exact ⟨.inl rfl, hlow⟩
      · exact ⟨.inr hbelow, hless⟩
    · rintro ⟨rfl | hbelow, hless⟩
      · exact .inl rfl
      · exact .inr ⟨hbelow, hless⟩

/-- Every child below the given node has a larger reference, up to a limit. -/
def Ascending (nodes : Heap) (limit ref : ℕ) : Prop :=
  ∀ other child, Relation.ReflTransGen nodes.Child ref other → nodes.Child other child →
    other < child ∧ child < limit

/-- Collecting from one node after the other. -/
theorem foldlM_collected {collect : List ℕ × List ℕ → ℕ → NodeResult (List ℕ × List ℕ)} {refs}
    (hcollect : ∀ ref ∈ refs, ∀ lists, ∃ descendants oldNodes,
      collect lists ref = .ok (lists.1 ++ descendants, lists.2 ++ oldNodes) ∧
        nodes.Collected height [ref] descendants oldNodes) (lists : List ℕ × List ℕ) :
    ∃ descendants oldNodes,
      refs.foldlM collect lists = .ok (lists.1 ++ descendants, lists.2 ++ oldNodes) ∧
        nodes.Collected height refs descendants oldNodes := by
  induction refs generalizing lists with
  | nil => exact ⟨[], [], by simp, .nil⟩
  | cons ref _ ih =>
    obtain ⟨first, firstOld, hfirst, hfirstSpec⟩ := hcollect ref List.mem_cons_self lists
    obtain ⟨second, secondOld, hsecond, hsecondSpec⟩ :=
      ih (fun other hother ↦ hcollect other (List.mem_cons_of_mem ref hother))
        (lists.1 ++ first, lists.2 ++ firstOld)
    refine ⟨first ++ second, firstOld ++ secondOld, ?_, hfirstSpec.append hsecondSpec⟩
    rw [List.foldlM_cons, hfirst, ok_bind, hsecond, List.append_assoc, List.append_assoc]

theorem closestDescendants_collected (fuel ref : ℕ) (hlimit : ref < limit)
    (hfuel : limit ≤ fuel + ref) (hascending : nodes.Ascending limit ref)
    (lists : List ℕ × List ℕ) :
    ∃ descendants oldNodes,
      closestDescendantsWithHeightAtLeast nodes height fuel lists ref =
          .ok (lists.1 ++ descendants, lists.2 ++ oldNodes) ∧
        nodes.Collected height [ref] descendants oldNodes := by
  induction fuel generalizing ref lists with
  | zero => omega
  | succ fuel ih =>
    rw [closestDescendantsWithHeightAtLeast]
    by_cases hhigh : height ≤ (nodes ref).height
    · exact ⟨[ref], [], by simp [hhigh], .high hhigh⟩
    · have hchildren : ∀ child ∈ (nodes ref).children, ∀ lists, ∃ descendants oldNodes,
          closestDescendantsWithHeightAtLeast nodes height fuel lists child =
              .ok (lists.1 ++ descendants, lists.2 ++ oldNodes) ∧
            nodes.Collected height [child] descendants oldNodes := by
        intro child hchild lists
        have hbounds := hascending ref child .refl hchild
        refine ih child hbounds.2 (by omega) ?_ lists
        exact fun other below hbelow ↦ hascending other below (.head hchild hbelow)
      obtain ⟨descendants, oldNodes, hfold, hspec⟩ :=
        foldlM_collected hchildren (lists.1, lists.2 ++ [ref])
      refine ⟨descendants, ref :: oldNodes, ?_, .low (not_le.mp hhigh) hspec⟩
      rw [if_neg hhigh, hfold]
      simp

end Heap

/-! ### The operations -/

namespace RecentBlocksTracker

variable {Content : Type}

def new (windowSize : ℕ+) : RecentBlocksTracker Content where
  windowSize
  nodes := Heap.empty
  allocated := 0
  rootChildren := []
  canonicalHead := none
  finalHead := none
  maximumHeightAvailable := 0
  hashToNode := fun _ ↦ none
  nodeToContent := fun _ ↦ none

variable (tracker : RecentBlocksTracker Content)

/-- Rounds enough for every loop over distinct nodes. -/
def fuel : ℕ := tracker.allocated + 1

variable (block : BlockViewLite) (content : Content)

/-- The first part of `add_block`: a new node for the block, linked to its parent if that is
tracked. -/
def insertNode : RecentBlocksTracker Content :=
  let parent := tracker.hashToNode block.prevHash
  let ref := tracker.allocated
  let node : BlockNode :=
    { hash := block.hash
      height := block.height
      canonical := false
      isFinal := false
      parent
      children := [] }
  let tracker :=
    { tracker with
      nodes := Function.update tracker.nodes ref node
      allocated := ref + 1
      hashToNode := Function.update tracker.hashToNode block.hash (some ref)
      nodeToContent := Function.update tracker.nodeToContent block.hash (some content) }
  match parent with
  | some above =>
      { tracker with
        nodes := tracker.nodes.modify above fun node ↦
          { node with children := node.children ++ [ref] } }
  | none => { tracker with rootChildren := tracker.rootChildren ++ [ref] }

/-- The newly final nodes come in ascending order. -/
def maybeUpdateFinalHead (potentialFinalHead : CryptoHash) :
    NodeResult (RecentBlocksTracker Content × List ℕ) :=
  match tracker.hashToNode potentialFinalHead with
  | none => .ok (tracker, [])
  | some finalHeadNode => do
      let (nodes, newFinalBlocks) ← finalizeFrom tracker.fuel tracker.nodes finalHeadNode
      let isNewer := tracker.finalHead.all fun previous ↦
        (nodes previous).height < (nodes finalHeadNode).height
      let finalHead := if isNewer then some finalHeadNode else tracker.finalHead
      return ({ tracker with nodes, finalHead }, newFinalBlocks.reverse)

def updateCanonicalHead (newCanonicalHead : ℕ) : NodeResult (RecentBlocksTracker Content) := do
  let (nodes, commonAncestor) ← markCanonical tracker.fuel tracker.nodes (some newCanonicalHead)
  let nodes ← unmarkCanonical commonAncestor tracker.fuel nodes tracker.canonicalHead
  return { tracker with nodes, canonicalHead := some newCanonicalHead }

/-- The part of `add_block` that makes the new block the canonical head if it is higher. -/
def chooseCanonicalHead (ref height : ℕ) : NodeResult (RecentBlocksTracker Content) :=
  if tracker.canonicalHead.all fun canonicalHead ↦ (tracker.nodes canonicalHead).height < height
  then tracker.updateCanonicalHead ref
  else .ok tracker

/-- The lowest height of the recent window. -/
def windowStart : ℕ :=
  tracker.maximumHeightAvailable - tracker.windowSize + 1

def minimumHeightToKeep : Option ℕ :=
  tracker.finalHead.map fun finalHead ↦ min tracker.windowStart (tracker.nodes finalHead).height

/-- The last part of `prune_old_blocks`: the new root children lose their parents, and the old nodes
are forgotten. -/
def replaceRoots (newRootChildren oldNodes : List ℕ) : RecentBlocksTracker Content :=
  let nodes := newRootChildren.foldl (fun nodes child ↦ nodes.modify child .detached) tracker.nodes
  let oldHashes := oldNodes.map fun ref ↦ (nodes ref).hash
  { tracker with
    nodes
    rootChildren := newRootChildren
    hashToNode := oldHashes.foldl (fun index hash ↦ Function.update index hash none)
      tracker.hashToNode
    nodeToContent := oldHashes.foldl (fun table hash ↦ Function.update table hash none)
      tracker.nodeToContent }

def pruneOldBlocks : NodeResult (RecentBlocksTracker Content) :=
  match tracker.minimumHeightToKeep with
  | none => .ok tracker
  | some minimum =>
      if minimum ≤ ((tracker.rootChildren.map fun ref ↦ (tracker.nodes ref).height).min?).getD 0
      then .ok tracker
      else do
        let (newRootChildren, oldNodes) ← tracker.rootChildren.foldlM
          (closestDescendantsWithHeightAtLeast tracker.nodes minimum tracker.fuel) ([], [])
        return tracker.replaceRoots newRootChildren oldNodes

/-- The newly final blocks with their heights come in ascending order. -/
def addBlock : NodeResult (RecentBlocksTracker Content × List (ℕ × Content)) := do
  require ((tracker.hashToNode block.hash).isNone) "Block already exists in the tracker"
  let ref := tracker.allocated
  let tracker := tracker.insertNode block content
  let (tracker, newFinalNodes) ← tracker.maybeUpdateFinalHead block.lastFinalBlock
  let newFinalBlocks := newFinalNodes.filterMap fun ref ↦
    (tracker.nodeToContent (tracker.nodes ref).hash).map fun content ↦
      ((tracker.nodes ref).height, content)
  let tracker ← tracker.chooseCanonicalHead ref block.height
  let tracker :=
    { tracker with
      maximumHeightAvailable := max tracker.maximumHeightAvailable block.height }
  let tracker ← tracker.pruneOldBlocks
  return (tracker, newFinalBlocks)

def notifyMaximumHeightAvailable (height : ℕ) : NodeResult (RecentBlocksTracker Content) :=
  if tracker.maximumHeightAvailable < height then
    pruneOldBlocks { tracker with maximumHeightAvailable := height }
  else .ok tracker

def classifyBlock (blockHash : CryptoHash) (blockHeight : ℕ) : CheckBlockResult :=
  if blockHeight < tracker.windowStart then .olderThanRecentWindow
  else
    match tracker.hashToNode blockHash with
    | none => .unknown
    | some ref =>
        if (tracker.nodes ref).isFinal then .recentAndFinal
        else if tracker.finalHead.any fun finalHead ↦
            blockHeight ≤ (tracker.nodes finalHead).height
        then .notIncluded
        else if (tracker.nodes ref).canonical then .optimisticAndCanonical
        else .optimisticButNotCanonical

end RecentBlocksTracker

end NearMpc.Node
