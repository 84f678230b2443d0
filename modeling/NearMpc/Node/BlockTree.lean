import NearMpc.Node.RecentBlocks

/-!
# The tree of recent blocks

The invariant of the tracker of recent blocks, and what the first parts of `add_block` do to it. A
node is tracked when it is reached from the root children (`Tracked`). `Links` says that the index,
the contents and the tracked nodes are the same blocks and that parents and children are linked both
ways; `Heads` says which nodes the two heads are and where the canonical mark stands.

Adding a block starts with the insertion of a node without children (`Insertion`). A report of a
final block (`Finalization`) and a new canonical head (`Switch`) then change marks and leave the
links alone. The three loops are total on a tree with these links, and the marks they leave are the
right ones because two chains that meet go on together.
-/

set_option autoImplicit false

namespace NearMpc.Node

open Library Library.Outcome Relation

namespace RecentBlocksTracker

variable {Content : Type}

/-! ### Tracked nodes and their links -/

/-- The node is reached from the root children. -/
def Tracked (tracker : RecentBlocksTracker Content) (ref : ℕ) : Prop :=
  ∃ root ∈ tracker.rootChildren, ReflTransGen tracker.nodes.Child root ref

/-- The index, the contents and the tracked nodes are the same blocks, linked both ways. -/
structure Links (tracker : RecentBlocksTracker Content) : Prop where
  descending : Descending tracker.nodes.parent
  lt_allocated : ∀ ref, tracker.Tracked ref → ref < tracker.allocated
  parent_of_root : ∀ ref ∈ tracker.rootChildren, tracker.nodes.parent ref = none
  parent_of_child : ∀ ref child, tracker.Tracked ref → tracker.nodes.Child ref child →
    tracker.nodes.parent child = some ref
  child_of_parent : ∀ ref above, tracker.Tracked ref → tracker.nodes.parent ref = some above →
    tracker.Tracked above ∧ tracker.nodes.Child above ref
  root_of_parent : ∀ ref, tracker.Tracked ref → tracker.nodes.parent ref = none →
    ref ∈ tracker.rootChildren
  index : ∀ hash ref, tracker.hashToNode hash = some ref ↔
    tracker.Tracked ref ∧ (tracker.nodes ref).hash = hash
  content : ∀ hash, (tracker.nodeToContent hash).isSome = (tracker.hashToNode hash).isSome

variable {tracker before after : RecentBlocksTracker Content} {ref above below : ℕ}

theorem Tracked.of_root (hroot : ref ∈ tracker.rootChildren) : tracker.Tracked ref :=
  ⟨ref, hroot, .refl⟩

theorem Tracked.child (htrack : tracker.Tracked ref)
    (hchild : tracker.nodes.Child ref below) : tracker.Tracked below := by
  obtain ⟨root, hroot, hpath⟩ := htrack
  exact ⟨root, hroot, hpath.tail hchild⟩

/-- Induction along the children. -/
@[elab_as_elim]
theorem Tracked.induct {motive : ℕ → Prop} (hroot : ∀ ref ∈ tracker.rootChildren, motive ref)
    (hchild : ∀ ref child, tracker.Tracked ref → motive ref → tracker.nodes.Child ref child →
      motive child) (htrack : tracker.Tracked ref) : motive ref := by
  obtain ⟨root, hmem, hpath⟩ := htrack
  induction hpath with
  | refl => exact hroot root hmem
  | tail hpath hstep ih => exact hchild _ _ ⟨root, hmem, hpath⟩ ih hstep

theorem Tracked.descendant (htrack : tracker.Tracked ref)
    (hpath : ReflTransGen tracker.nodes.Child ref below) : tracker.Tracked below := by
  obtain ⟨root, hroot, hfrom⟩ := htrack
  exact ⟨root, hroot, hfrom.trans hpath⟩

namespace Links

section

variable (hlinks : tracker.Links) (htrack : tracker.Tracked ref)
include hlinks htrack

theorem ascending : tracker.nodes.Ascending tracker.allocated ref := by
  intro other child hpath hchild
  have hother := htrack.descendant hpath
  exact ⟨hlinks.descending _ _ (hlinks.parent_of_child other child hother hchild),
    hlinks.lt_allocated child (hother.child hchild)⟩

theorem tracked_of_lineage (hmem : above ∈ lineage tracker.nodes.parent ref) :
    tracker.Tracked above := by
  rw [mem_lineage_iff_reflTransGen hlinks.descending] at hmem
  induction hmem with
  | refl => exact htrack
  | tail _ hparent ih => exact (hlinks.child_of_parent _ _ ih hparent).1

theorem eq_of_hash {other} (hother : tracker.Tracked other)
    (hhash : (tracker.nodes ref).hash = (tracker.nodes other).hash) : ref = other := by
  have hfirst := (hlinks.index _ _).mpr ⟨htrack, hhash⟩
  have hsecond := (hlinks.index _ _).mpr ⟨hother, rfl⟩
  exact Option.some.inj (hfirst.symm.trans hsecond)

end

end Links

/-- The same blocks with the same links, perhaps with other marks and heads. -/
structure SameLinks (before after : RecentBlocksTracker Content) : Prop where
  parent : after.nodes.parent = before.nodes.parent
  child : after.nodes.Child = before.nodes.Child
  hash : ∀ ref, (after.nodes ref).hash = (before.nodes ref).hash
  height : ∀ ref, (after.nodes ref).height = (before.nodes ref).height
  rootChildren : after.rootChildren = before.rootChildren
  allocated : after.allocated = before.allocated
  hashToNode : after.hashToNode = before.hashToNode
  nodeToContent : after.nodeToContent = before.nodeToContent

theorem SameLinks.refl (tracker : RecentBlocksTracker Content) : SameLinks tracker tracker :=
  ⟨rfl, rfl, fun _ ↦ rfl, fun _ ↦ rfl, rfl, rfl, rfl, rfl⟩

theorem SameLinks.tracked (hsame : SameLinks before after) (ref : ℕ) :
    after.Tracked ref ↔ before.Tracked ref := by
  rw [Tracked, Tracked, hsame.rootChildren, hsame.child]

theorem Links.of_same (hlinks : before.Links) (hsame : SameLinks before after) : after.Links where
  descending := hsame.parent ▸ hlinks.descending
  lt_allocated := by
    intro ref htrack
    rw [hsame.allocated]
    exact hlinks.lt_allocated ref ((hsame.tracked ref).mp htrack)
  parent_of_root := by
    rw [hsame.rootChildren, hsame.parent]
    exact hlinks.parent_of_root
  parent_of_child := by
    intro ref child htrack
    rw [hsame.parent, hsame.child]
    exact hlinks.parent_of_child ref child ((hsame.tracked ref).mp htrack)
  child_of_parent := by
    intro ref above htrack
    rw [hsame.parent, hsame.child, hsame.tracked]
    exact hlinks.child_of_parent ref above ((hsame.tracked ref).mp htrack)
  root_of_parent := by
    intro ref htrack
    rw [hsame.parent, hsame.rootChildren]
    exact hlinks.root_of_parent ref ((hsame.tracked ref).mp htrack)
  index := by
    intro hash ref
    rw [hsame.hashToNode, hsame.tracked, hsame.hash]
    exact hlinks.index hash ref
  content := by
    rw [hsame.hashToNode, hsame.nodeToContent]
    exact hlinks.content

/-! ### Inserting a node -/

/-- The tracker after a block was inserted under the next reference. -/
structure Insertion (block : BlockViewLite) (content : Content)
    (before after : RecentBlocksTracker Content) : Prop where
  parent : after.nodes.parent =
    Function.update before.nodes.parent before.allocated (before.hashToNode block.prevHash)
  child : ∀ ref child, after.nodes.Child ref child ↔
    (ref ≠ before.allocated ∧ before.nodes.Child ref child) ∨
      (before.hashToNode block.prevHash = some ref ∧ child = before.allocated)
  old : ∀ ref, ref ≠ before.allocated → (after.nodes ref).hash = (before.nodes ref).hash ∧
    (after.nodes ref).height = (before.nodes ref).height ∧
    (after.nodes ref).canonical = (before.nodes ref).canonical ∧
    (after.nodes ref).isFinal = (before.nodes ref).isFinal
  new : (after.nodes before.allocated).hash = block.hash ∧
    (after.nodes before.allocated).height = block.height ∧
    (after.nodes before.allocated).canonical = false ∧
    (after.nodes before.allocated).isFinal = false
  mem_rootChildren : ∀ ref, ref ∈ after.rootChildren ↔ ref ∈ before.rootChildren ∨
    (before.hashToNode block.prevHash = none ∧ ref = before.allocated)
  allocated : after.allocated = before.allocated + 1
  canonicalHead : after.canonicalHead = before.canonicalHead
  finalHead : after.finalHead = before.finalHead
  windowSize : after.windowSize = before.windowSize
  maximumHeightAvailable : after.maximumHeightAvailable = before.maximumHeightAvailable
  hashToNode : after.hashToNode =
    Function.update before.hashToNode block.hash (some before.allocated)
  nodeToContent : after.nodeToContent =
    Function.update before.nodeToContent block.hash (some content)

theorem insertNode_nodes (tracker : RecentBlocksTracker Content) (block : BlockViewLite)
    (content : Content) (ref : ℕ) :
    (tracker.insertNode block content).nodes ref =
      let node : BlockNode := if ref = tracker.allocated then
          { hash := block.hash, height := block.height, canonical := false, isFinal := false,
            parent := tracker.hashToNode block.prevHash, children := [] }
        else tracker.nodes ref
      if tracker.hashToNode block.prevHash = some ref then
        { node with children := node.children ++ [tracker.allocated] }
      else node := by
  unfold insertNode
  cases hparent : tracker.hashToNode block.prevHash with
  | none => simp [Function.update_apply]
  | some above =>
    by_cases habove : above = ref
    · subst habove
      simp [Heap.modify, Function.update_apply]
    · simp [Heap.modify, Function.update_apply, habove, Ne.symm habove]

theorem insertNode_insertion (hlinks : tracker.Links) (block : BlockViewLite) (content : Content) :
    Insertion block content tracker (tracker.insertNode block content) := by
  have hnodes := insertNode_nodes tracker block content
  have hfresh : tracker.hashToNode block.prevHash ≠ some tracker.allocated := by
    intro hparent
    have htrack := ((hlinks.index _ _).mp hparent).1
    exact absurd (hlinks.lt_allocated _ htrack) (lt_irrefl _)
  constructor
  case parent =>
    funext ref
    rw [Heap.parent, hnodes, Function.update_apply]
    dsimp only
    split_ifs <;> rfl
  case child =>
    intro ref _
    rw [Heap.Child, hnodes, Heap.Child]
    by_cases hnew : ref = tracker.allocated
    · subst hnew
      simp [hfresh]
    · by_cases habove : tracker.hashToNode block.prevHash = some ref
      · simp [hnew, habove]
      · simp [hnew, habove]
  case old =>
    intro _ hold
    rw [hnodes]
    dsimp only
    rw [if_neg hold]
    split_ifs <;> exact ⟨rfl, rfl, rfl, rfl⟩
  case new =>
    rw [hnodes]
    dsimp only
    rw [if_neg hfresh, if_pos rfl]
    exact ⟨rfl, rfl, rfl, rfl⟩
  case mem_rootChildren =>
    intro _
    unfold insertNode
    cases hparent : tracker.hashToNode block.prevHash <;> simp
  all_goals
    unfold insertNode
    cases hparent : tracker.hashToNode block.prevHash <;> rfl

namespace Insertion

variable {block : BlockViewLite} {content : Content}

section

variable (hinsert : Insertion block content before after) (hlinks : before.Links)
include hinsert hlinks

/-- One more node is tracked. -/
theorem tracked (ref : ℕ) : after.Tracked ref ↔ before.Tracked ref ∨ ref = before.allocated := by
  have hne : ∀ ref, before.Tracked ref → ref ≠ before.allocated :=
    fun ref htrack ↦ (hlinks.lt_allocated ref htrack).ne
  constructor
  · intro htrack
    refine Tracked.induct ?_ ?_ htrack
    · intro ref hroot
      rcases (hinsert.mem_rootChildren ref).mp hroot with hold | ⟨_, rfl⟩
      · exact .inl (.of_root hold)
      · exact .inr rfl
    · intro ref child _ ih hchild
      rcases (hinsert.child ref child).mp hchild with ⟨hold, hbefore⟩ | ⟨_, rfl⟩
      · exact .inl ((ih.resolve_right hold).child hbefore)
      · exact .inr rfl
  · have hkept : ∀ ref, before.Tracked ref → after.Tracked ref := by
      intro ref htrack
      refine Tracked.induct ?_ ?_ htrack
      · exact fun ref hroot ↦ .of_root ((hinsert.mem_rootChildren ref).mpr (.inl hroot))
      · intro ref child htrack ih hchild
        exact ih.child ((hinsert.child ref child).mpr (.inl ⟨hne ref htrack, hchild⟩))
    rintro (htrack | rfl)
    · exact hkept ref htrack
    · cases hparent : before.hashToNode block.prevHash with
      | none => exact .of_root ((hinsert.mem_rootChildren _).mpr (.inr ⟨hparent, rfl⟩))
      | some above =>
        have habove := hkept above ((hlinks.index _ _).mp hparent).1
        exact habove.child ((hinsert.child above _).mpr (.inr ⟨hparent, rfl⟩))

theorem links (hunknown : before.hashToNode block.hash = none) : after.Links := by
  have hne : ∀ ref, before.Tracked ref → ref ≠ before.allocated :=
    fun ref htrack ↦ (hlinks.lt_allocated ref htrack).ne
  have hparent : ∀ above, before.hashToNode block.prevHash = some above → before.Tracked above :=
    fun above hlookup ↦ ((hlinks.index _ _).mp hlookup).1
  have hnewParent : after.nodes.parent before.allocated = before.hashToNode block.prevHash := by
    rw [hinsert.parent, Function.update_self]
  have holdParent : ∀ ref, ref ≠ before.allocated →
      after.nodes.parent ref = before.nodes.parent ref := by
    intro _ hold
    rw [hinsert.parent, Function.update_of_ne hold]
  constructor
  case descending =>
    intro ref above habove
    by_cases hnew : ref = before.allocated
    · subst hnew
      rw [hnewParent] at habove
      exact hlinks.lt_allocated above (hparent above habove)
    · rw [holdParent ref hnew] at habove
      exact hlinks.descending ref above habove
  case lt_allocated =>
    intro ref htrack
    rw [hinsert.allocated]
    rcases (hinsert.tracked hlinks ref).mp htrack with hold | rfl
    · exact (hlinks.lt_allocated ref hold).trans (Nat.lt_succ_self _)
    · exact Nat.lt_succ_self _
  case parent_of_root =>
    intro ref hroot
    rcases (hinsert.mem_rootChildren ref).mp hroot with hold | ⟨hnone, rfl⟩
    · rw [holdParent ref (hne ref (.of_root hold))]
      exact hlinks.parent_of_root ref hold
    · rw [hnewParent, hnone]
  case parent_of_child =>
    intro ref child htrack hchild
    rcases (hinsert.child ref child).mp hchild with ⟨hold, hbefore⟩ | ⟨hlookup, rfl⟩
    · have hrefTracked := ((hinsert.tracked hlinks ref).mp htrack).resolve_right hold
      rw [holdParent child (hne child (hrefTracked.child hbefore))]
      exact hlinks.parent_of_child ref child hrefTracked hbefore
    · rw [hnewParent, hlookup]
  case child_of_parent =>
    intro ref above htrack habove
    rw [hinsert.tracked hlinks, hinsert.child]
    rcases (hinsert.tracked hlinks ref).mp htrack with hold | rfl
    · rw [holdParent ref (hne ref hold)] at habove
      obtain ⟨haboveTracked, hchild⟩ := hlinks.child_of_parent ref above hold habove
      exact ⟨.inl haboveTracked, .inl ⟨hne above haboveTracked, hchild⟩⟩
    · rw [hnewParent] at habove
      exact ⟨.inl (hparent above habove), .inr ⟨habove, rfl⟩⟩
  case root_of_parent =>
    intro ref htrack hnone
    rw [hinsert.mem_rootChildren]
    rcases (hinsert.tracked hlinks ref).mp htrack with hold | rfl
    · rw [holdParent ref (hne ref hold)] at hnone
      exact .inl (hlinks.root_of_parent ref hold hnone)
    · rw [hnewParent] at hnone
      exact .inr ⟨hnone, rfl⟩
  case index =>
    intro hash ref
    rw [hinsert.hashToNode, hinsert.tracked hlinks]
    by_cases hhash : hash = block.hash
    · subst hhash
      rw [Function.update_self, Option.some.injEq]
      constructor
      · rintro rfl
        exact ⟨.inr rfl, hinsert.new.1⟩
      · rintro ⟨hold | rfl, hhash⟩
        · rw [(hinsert.old ref (hne ref hold)).1] at hhash
          have hlookup := (hlinks.index _ _).mpr ⟨hold, hhash⟩
          exact absurd (hunknown.symm.trans hlookup) (Option.some_ne_none ref).symm
        · rfl
    · rw [Function.update_of_ne hhash, hlinks.index]
      constructor
      · rintro ⟨hold, hsame⟩
        exact ⟨.inl hold, (hinsert.old ref (hne ref hold)).1.trans hsame⟩
      · rintro ⟨hold | rfl, hsame⟩
        · exact ⟨hold, (hinsert.old ref (hne ref hold)).1.symm.trans hsame⟩
        · exact absurd (hsame.symm.trans hinsert.new.1) hhash
  case content =>
    intro hash
    rw [hinsert.hashToNode, hinsert.nodeToContent]
    by_cases hhash : hash = block.hash
    · subst hhash
      rw [Function.update_self, Function.update_self]
      rfl
    · rw [Function.update_of_ne hhash, Function.update_of_ne hhash]
      exact hlinks.content hash

/-- The ancestors of an old node are the same. -/
theorem lineage_eq (hafter : after.Links) (htrack : before.Tracked ref) :
    lineage after.nodes.parent ref = lineage before.nodes.parent ref := by
  refine lineage_congr hlinks.descending hafter.descending fun ancestor hancestor ↦ ?_
  rw [hinsert.parent]
  have hlt := hlinks.lt_allocated _ (hlinks.tracked_of_lineage htrack hancestor)
  exact Function.update_of_ne hlt.ne _ _

end

end Insertion

/-! ### Marks and heads -/

/-- A change of marks. -/
theorem SameLinks.of_modifyAll {refs} {change : BlockNode → BlockNode}
    (hchange : ∀ node, (change node).parent = node.parent ∧
      (change node).children = node.children ∧ (change node).hash = node.hash ∧
      (change node).height = node.height)
    (hnodes : after.nodes = before.nodes.modifyAll refs change)
    (hroots : after.rootChildren = before.rootChildren)
    (hallocated : after.allocated = before.allocated)
    (hindex : after.hashToNode = before.hashToNode)
    (hcontent : after.nodeToContent = before.nodeToContent) : SameLinks before after := by
  have hnode : ∀ ref, (after.nodes ref).parent = (before.nodes ref).parent ∧
      (after.nodes ref).children = (before.nodes ref).children ∧
      (after.nodes ref).hash = (before.nodes ref).hash ∧
      (after.nodes ref).height = (before.nodes ref).height := by
    intro ref
    rw [hnodes]
    by_cases hmem : ref ∈ refs
    · rw [Heap.modifyAll_of_mem hmem]
      exact hchange _
    · rw [Heap.modifyAll_of_not_mem hmem]
      exact ⟨rfl, rfl, rfl, rfl⟩
  constructor
  case parent =>
    funext ref
    exact (hnode ref).1
  case child =>
    funext ref child
    rw [Heap.Child, Heap.Child, (hnode ref).2.1]
  case hash => exact fun ref ↦ (hnode ref).2.2.1
  case height => exact fun ref ↦ (hnode ref).2.2.2
  all_goals assumption

theorem SameLinks.trans {middle} (hfirst : SameLinks before middle)
    (hsecond : SameLinks middle after) : SameLinks before after where
  parent := hsecond.parent.trans hfirst.parent
  child := hsecond.child.trans hfirst.child
  hash := fun ref ↦ (hsecond.hash ref).trans (hfirst.hash ref)
  height := fun ref ↦ (hsecond.height ref).trans (hfirst.height ref)
  rootChildren := hsecond.rootChildren.trans hfirst.rootChildren
  allocated := hsecond.allocated.trans hfirst.allocated
  hashToNode := hsecond.hashToNode.trans hfirst.hashToNode
  nodeToContent := hsecond.nodeToContent.trans hfirst.nodeToContent

/-- The tracker after a block was reported final, and the newly final nodes. -/
structure Finalization (reported : CryptoHash) (before after : RecentBlocksTracker Content)
    (newFinal : List ℕ) : Prop where
  links : SameLinks before after
  newFinal_eq : newFinal =
    ((lineage? before.nodes.parent (before.hashToNode reported)).takeWhile
      fun ref ↦ !(before.nodes ref).isFinal).reverse
  isFinal : ∀ ref, (after.nodes ref).isFinal = true ↔
    (before.nodes ref).isFinal = true ∨ ref ∈ newFinal
  canonical : ∀ ref, (after.nodes ref).canonical = (before.nodes ref).canonical
  canonicalHead : after.canonicalHead = before.canonicalHead
  finalHead : after.finalHead = before.finalHead ∧
      (∀ ref ∈ before.hashToNode reported, ∃ head ∈ before.finalHead,
        (before.nodes ref).height ≤ (before.nodes head).height) ∨
    after.finalHead = before.hashToNode reported ∧
      ∃ ref ∈ before.hashToNode reported, ∀ head ∈ before.finalHead,
        (before.nodes head).height < (before.nodes ref).height
  windowSize : after.windowSize = before.windowSize
  maximumHeightAvailable : after.maximumHeightAvailable = before.maximumHeightAvailable

theorem maybeUpdateFinalHead_eq_ok (hlinks : tracker.Links) (reported : CryptoHash) :
    ∃ after newFinal, tracker.maybeUpdateFinalHead reported = .ok (after, newFinal) ∧
      Finalization reported tracker after newFinal := by
  unfold maybeUpdateFinalHead
  cases hlookup : tracker.hashToNode reported with
  | none =>
    refine ⟨tracker, [], rfl, ?_⟩
    constructor
    case links => exact .refl tracker
    case newFinal_eq => simp [hlookup]
    case isFinal => simp
    case finalHead => simp [hlookup]
    all_goals simp
  | some ref =>
    have htrack := ((hlinks.index _ _).mp hlookup).1
    have hlt := hlinks.lt_allocated ref htrack
    have hfuel : ref < tracker.fuel := hlt.trans (Nat.lt_succ_self _)
    dsimp only
    rw [finalizeFrom_eq tracker.fuel tracker.nodes ref hlinks.descending hfuel, ok_bind]
    set newFinal := (lineage tracker.nodes.parent ref).takeWhile
      fun other ↦ !(tracker.nodes other).isFinal
    have hheight : ∀ other, (tracker.nodes.modifyAll newFinal .finalized other).height =
        (tracker.nodes other).height := by
      intro _
      unfold Heap.modifyAll
      split_ifs <;> rfl
    refine ⟨_, _, rfl, ?_⟩
    constructor
    case links =>
      exact @SameLinks.of_modifyAll _ tracker _ newFinal .finalized
        (fun _ ↦ ⟨rfl, rfl, rfl, rfl⟩) rfl rfl rfl rfl rfl
    case newFinal_eq => rw [hlookup, lineage?_some]
    case isFinal =>
      intro other
      rw [List.mem_reverse]
      by_cases hmem : other ∈ newFinal
      · simp [Heap.modifyAll_of_mem hmem, BlockNode.finalized, hmem]
      · simp [Heap.modifyAll_of_not_mem hmem, hmem]
    case canonical =>
      intro _
      dsimp only
      unfold Heap.modifyAll
      split_ifs <;> rfl
    case finalHead =>
      simp only [hheight]
      cases hfinal : tracker.finalHead with
      | none => simp [hlookup]
      | some head =>
        by_cases hnewer : (tracker.nodes head).height < (tracker.nodes ref).height
        · simp [hlookup, hnewer]
        · simp [hlookup, hnewer, not_lt.mp hnewer]
    all_goals rfl

/-- The heads are tracked, the canonical head is the first of the highest among the first `seen`
blocks, and the canonical mark stands on it and its ancestors. -/
structure Heads (tracker : RecentBlocksTracker Content) (seen : ℕ) : Prop where
  canonical : ∀ ref, tracker.Tracked ref → ((tracker.nodes ref).canonical = true ↔
    ref ∈ lineage? tracker.nodes.parent tracker.canonicalHead)
  canonicalHead_tracked : ∀ head ∈ tracker.canonicalHead, tracker.Tracked head
  first : ∀ head ∈ tracker.canonicalHead, ∀ ref < head,
    (tracker.nodes ref).height < (tracker.nodes head).height
  highest : ∀ head ∈ tracker.canonicalHead, ∀ ref < seen,
    (tracker.nodes ref).height ≤ (tracker.nodes head).height
  none_seen : tracker.canonicalHead = none → seen = 0
  finalHead_tracked : ∀ head ∈ tracker.finalHead, tracker.Tracked head

/-- The new node is on no canonical chain yet. -/
theorem Heads.insertion {block content} (hheads : before.Heads before.allocated)
    (hlinks : before.Links) (hinsert : Insertion block content before after) (hafter : after.Links)
    :
    after.Heads before.allocated := by
  have hne : ∀ ref, before.Tracked ref → ref ≠ before.allocated :=
    fun ref htrack ↦ (hlinks.lt_allocated ref htrack).ne
  have hsame : lineage? after.nodes.parent after.canonicalHead =
      lineage? before.nodes.parent before.canonicalHead := by
    rw [hinsert.canonicalHead]
    cases hhead : before.canonicalHead with
    | none => rfl
    | some head =>
      exact hinsert.lineage_eq hlinks hafter (hheads.canonicalHead_tracked head hhead)
  have hheight : ∀ ref, ref ≠ before.allocated →
      (after.nodes ref).height = (before.nodes ref).height := fun ref hold ↦
    (hinsert.old ref hold).2.1
  have hheadLt : ∀ head ∈ before.canonicalHead, head < before.allocated := fun head hhead ↦
    hlinks.lt_allocated head (hheads.canonicalHead_tracked head hhead)
  constructor
  case canonical =>
    intro ref htrack
    rw [hsame]
    rcases (hinsert.tracked hlinks ref).mp htrack with hold | rfl
    · rw [(hinsert.old ref (hne ref hold)).2.2.1]
      exact hheads.canonical ref hold
    · rw [hinsert.new.2.2.1]
      refine ⟨fun hfalse ↦ absurd hfalse Bool.false_ne_true, fun hmem ↦ ?_⟩
      cases hhead : before.canonicalHead with
      | none =>
        rw [hhead] at hmem
        exact absurd hmem List.not_mem_nil
      | some head =>
        rw [hhead] at hmem
        have hle := le_of_mem_lineage hlinks.descending hmem
        exact absurd (hheadLt head hhead) (not_lt.mpr hle)
  case canonicalHead_tracked =>
    rw [hinsert.canonicalHead]
    intro head hhead
    exact (hinsert.tracked hlinks head).mpr (.inl (hheads.canonicalHead_tracked head hhead))
  case first =>
    rw [hinsert.canonicalHead]
    intro head hhead ref href
    have hlt := hheadLt head hhead
    rw [hheight ref (by omega), hheight head hlt.ne]
    exact hheads.first head hhead ref href
  case highest =>
    rw [hinsert.canonicalHead]
    intro head hhead ref href
    rw [hheight ref href.ne, hheight head (hheadLt head hhead).ne]
    exact hheads.highest head hhead ref href
  case none_seen =>
    rw [hinsert.canonicalHead]
    exact hheads.none_seen
  case finalHead_tracked =>
    rw [hinsert.finalHead]
    intro head hhead
    exact (hinsert.tracked hlinks head).mpr (.inl (hheads.finalHead_tracked head hhead))

theorem Heads.finalization {seen reported newFinal} (hheads : before.Heads seen)
    (hlinks : before.Links) (hreport : Finalization reported before after newFinal) :
    after.Heads seen where
  canonical := by
    intro ref htrack
    rw [hreport.links.tracked] at htrack
    rw [hreport.canonical, hreport.links.parent, hreport.canonicalHead]
    exact hheads.canonical ref htrack
  canonicalHead_tracked := by
    intro head hhead
    rw [hreport.canonicalHead] at hhead
    exact (hreport.links.tracked head).mpr (hheads.canonicalHead_tracked head hhead)
  first := by
    rw [hreport.canonicalHead]
    simpa only [hreport.links.height] using hheads.first
  highest := by
    rw [hreport.canonicalHead]
    simpa only [hreport.links.height] using hheads.highest
  none_seen := by
    rw [hreport.canonicalHead]
    exact hheads.none_seen
  finalHead_tracked := by
    intro head hhead
    rw [hreport.links.tracked]
    rcases hreport.finalHead with ⟨hsame, _⟩ | ⟨hnew, _⟩
    · exact hheads.finalHead_tracked head (hsame ▸ hhead)
    · rw [hnew] at hhead
      exact ((hlinks.index _ _).mp hhead).1

/-- The tracker after the canonical chain may have changed to that of another head. -/
structure Switch (before after : RecentBlocksTracker Content) : Prop where
  links : SameLinks before after
  isFinal : ∀ ref, (after.nodes ref).isFinal = (before.nodes ref).isFinal
  finalHead : after.finalHead = before.finalHead
  windowSize : after.windowSize = before.windowSize

theorem updateCanonicalHead_eq_ok {seen new} (hlinks : tracker.Links) (hheads : tracker.Heads seen)
    (hnew : tracker.Tracked new) :
    ∃ after, tracker.updateCanonicalHead new = .ok after ∧ Switch tracker after ∧
      after.maximumHeightAvailable = tracker.maximumHeightAvailable ∧
      after.canonicalHead = some new ∧
      ∀ ref, tracker.Tracked ref →
        ((after.nodes ref).canonical = true ↔ ref ∈ lineage tracker.nodes.parent new) := by
  have hfuel : ∀ ref, tracker.Tracked ref → ref < tracker.fuel := fun ref htrack ↦
    (hlinks.lt_allocated ref htrack).trans (Nat.lt_succ_self _)
  unfold updateCanonicalHead
  rw [markCanonical_eq tracker.fuel tracker.nodes new hlinks.descending (hfuel new hnew), ok_bind]
  set skip : ℕ → Bool := fun other ↦ !(tracker.nodes other).canonical with hskipDef
  set fresh := (lineage tracker.nodes.parent new).takeWhile skip
  set common := ((lineage tracker.nodes.parent new).dropWhile skip).head?
  set marked := tracker.nodes.modifyAll fresh (.markedCanonical true) with hmarkedDef
  have hmarked : marked.parent = tracker.nodes.parent := by
    funext other
    rw [Heap.parent, hmarkedDef, Heap.modifyAll]
    split_ifs <;> rfl
  have hdescend : Descending marked.parent := hmarked ▸ hlinks.descending
  dsimp only
  rw [unmarkCanonical_eq common tracker.fuel marked tracker.canonicalHead hdescend
    fun head hhead ↦ hfuel head (hheads.canonicalHead_tracked head hhead), ok_bind, hmarked]
  set gone := (lineage? tracker.nodes.parent tracker.canonicalHead).takeWhile
    fun other ↦ some other != common
  have hskip : ∀ node ∈ lineage tracker.nodes.parent new,
      skip node = false ↔ node ∈ lineage? tracker.nodes.parent tracker.canonicalHead := by
    intro node hnode
    rw [← hheads.canonical node (hlinks.tracked_of_lineage hnew hnode), hskipDef,
      Bool.not_eq_false']
  have hmarks : ∀ (nodes : Heap) (refs : List ℕ) (value : Bool) (ref : ℕ),
      (nodes.modifyAll refs (.markedCanonical value) ref).isFinal = (nodes ref).isFinal := by
    intro _ _ _ _
    unfold Heap.modifyAll
    split_ifs <;> rfl
  refine ⟨_, rfl, ⟨?_, ?_, rfl, rfl⟩, rfl, rfl, ?_⟩
  · let middle : RecentBlocksTracker Content := { tracker with nodes := marked }
    have hfirst : SameLinks tracker middle :=
      @SameLinks.of_modifyAll _ tracker middle fresh (.markedCanonical true)
        (fun _ ↦ ⟨rfl, rfl, rfl, rfl⟩) rfl rfl rfl rfl rfl
    exact hfirst.trans (@SameLinks.of_modifyAll _ middle _ gone (.markedCanonical false)
      (fun _ ↦ ⟨rfl, rfl, rfl, rfl⟩) rfl rfl rfl rfl rfl)
  · exact fun ref ↦ (hmarks marked gone false ref).trans (hmarks tracker.nodes fresh true ref)
  · intro ref htrack
    rw [mem_lineage_iff_switch hlinks.descending hskip ref, ← hheads.canonical ref htrack]
    show (marked.modifyAll gone (.markedCanonical false) ref).canonical = true ↔
      (ref ∈ fresh ∨ (tracker.nodes ref).canonical = true) ∧ ref ∉ gone
    by_cases hgone : ref ∈ gone
    · simp [Heap.modifyAll_of_mem hgone, BlockNode.markedCanonical, hgone]
    · rw [Heap.modifyAll_of_not_mem hgone, hmarkedDef]
      by_cases hfresh : ref ∈ fresh
      · simp [Heap.modifyAll_of_mem hfresh, BlockNode.markedCanonical, hgone, hfresh]
      · simp [Heap.modifyAll_of_not_mem hfresh, hgone, hfresh]

/-- The new block becomes the canonical head if it is higher than the current one. -/
theorem chooseCanonicalHead_eq_ok {new height} (hlinks : tracker.Links) (hheads : tracker.Heads new)
    (hnew : tracker.Tracked new) (hheight : (tracker.nodes new).height = height) :
    ∃ after, tracker.chooseCanonicalHead new height = .ok after ∧
      Switch tracker after ∧ after.maximumHeightAvailable = tracker.maximumHeightAvailable ∧
      after.Heads (new + 1) := by
  unfold chooseCanonicalHead
  by_cases hhigher : tracker.canonicalHead.all fun head ↦
    decide ((tracker.nodes head).height < height)
  · obtain ⟨after, hupdate, hswitch, hmaximum, hhead, hcanonical⟩ :=
      updateCanonicalHead_eq_ok hlinks hheads hnew
    rw [if_pos hhigher, hupdate]
    have hlower : ∀ ref < new, (tracker.nodes ref).height < (tracker.nodes new).height := by
      intro ref href
      cases hold : tracker.canonicalHead with
      | none => exact absurd href (by rw [hheads.none_seen hold]; exact Nat.not_lt_zero ref)
      | some head =>
        rw [hold, Option.all_some, decide_eq_true_eq, ← hheight] at hhigher
        exact (hheads.highest head hold ref href).trans_lt hhigher
    refine ⟨after, rfl, hswitch, hmaximum, ?_⟩
    constructor
    case canonical =>
      intro ref htrack
      rw [hhead, hswitch.links.parent, lineage?_some]
      exact hcanonical ref ((hswitch.links.tracked ref).mp htrack)
    case canonicalHead_tracked =>
      intro head heq
      obtain rfl : new = head := Option.some.inj (hhead.symm.trans heq)
      exact (hswitch.links.tracked new).mpr hnew
    case first =>
      intro head heq ref href
      obtain rfl : new = head := Option.some.inj (hhead.symm.trans heq)
      rw [hswitch.links.height, hswitch.links.height]
      exact hlower ref href
    case highest =>
      intro head heq ref href
      obtain rfl : new = head := Option.some.inj (hhead.symm.trans heq)
      rw [hswitch.links.height, hswitch.links.height]
      rcases Nat.lt_succ_iff_lt_or_eq.mp href with hless | rfl
      · exact (hlower ref hless).le
      · exact le_rfl
    case none_seen =>
      intro hnone
      exact absurd (hnone.symm.trans hhead) (Option.some_ne_none new).symm
    case finalHead_tracked =>
      intro head heq
      rw [hswitch.finalHead] at heq
      exact (hswitch.links.tracked head).mpr (hheads.finalHead_tracked head heq)
  · rw [if_neg hhigher]
    obtain ⟨head, hold, hhead⟩ : ∃ head, tracker.canonicalHead = some head ∧
        height ≤ (tracker.nodes head).height := by
      cases hold : tracker.canonicalHead with
      | none => simp [hold] at hhigher
      | some head =>
        rw [hold, Option.all_some, decide_eq_true_eq, not_lt] at hhigher
        exact ⟨head, rfl, hhigher⟩
    refine ⟨tracker, rfl, ⟨.refl tracker, fun _ ↦ rfl, rfl, rfl⟩, rfl, ?_⟩
    refine { hheads with highest := ?_, none_seen := ?_ }
    · intro other heq ref href
      rcases Nat.lt_succ_iff_lt_or_eq.mp href with hless | rfl
      · exact hheads.highest other heq ref hless
      · obtain rfl : head = other := Option.some.inj (hold.symm.trans heq)
        rw [hheight]
        exact hhead
    · intro hnone
      exact absurd (hnone.symm.trans hold) (Option.some_ne_none head).symm

end RecentBlocksTracker

end NearMpc.Node
