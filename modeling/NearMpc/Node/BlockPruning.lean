import NearMpc.Node.BlockTree

/-!
# Pruning the tree of recent blocks

What removing old blocks does to the tree, and the invariant of the tracker over any calls. A
pruning removes whole tops of the tree: with a node go all its ancestors (`Pruning`). It keeps the
links of the nodes that stay, and it keeps both heads because it removes nothing as high as the
final head.

`addBlock_eq_ok` takes the addition of a block apart into an insertion, a report of a final block, a
choice of the canonical head and a pruning. The references of the nodes are the places of their
blocks in the list of the blocks added so far, which ties the tree to the calls
(`recentBlocks_represented`).
-/

set_option autoImplicit false

namespace NearMpc.Node

open Library Library.Outcome Relation

theorem Heap.Exposed.reached {nodes : Heap} {height ref below : ℕ}
    (hexposed : nodes.Exposed height ref below) : ReflTransGen nodes.Child ref below :=
  .mono (fun _ _ hstep ↦ hstep.2) _ _ hexposed

namespace RecentBlocksTracker

variable {Content : Type} {tracker before after : RecentBlocksTracker Content} {ref above below : ℕ}

/-! ### Pruning -/

/-- The tracker after the nodes in `gone` were removed. With a node go its ancestors. -/
structure Pruning (gone : ℕ → Prop) (before after : RecentBlocksTracker Content) : Prop where
  marks : ∀ ref, (after.nodes ref).hash = (before.nodes ref).hash ∧
    (after.nodes ref).height = (before.nodes ref).height ∧
    (after.nodes ref).canonical = (before.nodes ref).canonical ∧
    (after.nodes ref).isFinal = (before.nodes ref).isFinal
  gone_parent : ∀ ref above, gone ref → before.nodes.parent ref = some above → gone above
  gone_low : ∀ ref, gone ref → (before.nodes ref).height < before.windowStart ∧
    ∃ head ∈ before.finalHead, (before.nodes ref).height < (before.nodes head).height
  tracked : ∀ ref, after.Tracked ref ↔ before.Tracked ref ∧ ¬ gone ref
  parent_sub : ∀ ref above, after.nodes.parent ref = some above →
    before.nodes.parent ref = some above
  parent : ∀ ref above, after.Tracked ref → (after.nodes.parent ref = some above ↔
    before.nodes.parent ref = some above ∧ ¬ gone above)
  child : after.nodes.Child = before.nodes.Child
  mem_rootChildren : ∀ ref, ref ∈ after.rootChildren ↔
    after.Tracked ref ∧ after.nodes.parent ref = none
  hashToNode : ∀ hash ref, after.hashToNode hash = some ref ↔
    before.hashToNode hash = some ref ∧ ¬ gone ref
  nodeToContent : ∀ hash, after.nodeToContent hash =
    if (after.hashToNode hash).isSome then before.nodeToContent hash else none
  allocated : after.allocated = before.allocated
  canonicalHead : after.canonicalHead = before.canonicalHead
  finalHead : after.finalHead = before.finalHead
  windowSize : after.windowSize = before.windowSize
  maximumHeightAvailable : after.maximumHeightAvailable = before.maximumHeightAvailable

theorem Pruning.refl (hlinks : tracker.Links) : Pruning (fun _ ↦ False) tracker tracker := by
  constructor
  case mem_rootChildren =>
    intro ref
    constructor
    · exact fun hroot ↦ ⟨.of_root hroot, hlinks.parent_of_root ref hroot⟩
    · exact fun hboth ↦ hlinks.root_of_parent ref hboth.1 hboth.2
  case nodeToContent =>
    intro hash
    have hcontent := hlinks.content hash
    split_ifs with hsome
    · rfl
    · rw [← hcontent, Bool.not_eq_true, Option.isSome_eq_false_iff, Option.isNone_iff_eq_none]
        at hsome
      exact hsome
  all_goals simp

theorem foldl_update_none {Value : Type} (hashes : List CryptoHash)
    (table : CryptoHash → Option Value) (hash : CryptoHash) :
    hashes.foldl (fun table hash ↦ Function.update table hash none) table hash =
      if hash ∈ hashes then none else table hash := by
  induction hashes generalizing table with
  | nil => simp
  | cons first _ ih =>
    rw [List.foldl_cons, ih, Function.update_apply]
    by_cases hfirst : hash = first <;> simp [hfirst]

section ReplaceRoots

variable {minimum : ℕ} {newRootChildren oldNodes : List ℕ}

theorem replaceRoots_nodes :
    (tracker.replaceRoots newRootChildren oldNodes).nodes =
      tracker.nodes.modifyAll newRootChildren .detached :=
  Heap.foldl_modify _ _ BlockNode.detached fun _ ↦ rfl

theorem replaceRoots_marks (ref : ℕ) :
    ((tracker.replaceRoots newRootChildren oldNodes).nodes ref).hash = (tracker.nodes ref).hash ∧
    ((tracker.replaceRoots newRootChildren oldNodes).nodes ref).height =
      (tracker.nodes ref).height ∧
    ((tracker.replaceRoots newRootChildren oldNodes).nodes ref).canonical =
      (tracker.nodes ref).canonical ∧
    ((tracker.replaceRoots newRootChildren oldNodes).nodes ref).isFinal =
      (tracker.nodes ref).isFinal := by
  rw [replaceRoots_nodes]
  unfold Heap.modifyAll
  split_ifs <;> exact ⟨rfl, rfl, rfl, rfl⟩

theorem replaceRoots_parent (ref : ℕ) :
    (tracker.replaceRoots newRootChildren oldNodes).nodes.parent ref =
      if ref ∈ newRootChildren then none else tracker.nodes.parent ref := by
  rw [replaceRoots_nodes]
  unfold Heap.parent Heap.modifyAll
  split_ifs <;> rfl

theorem replaceRoots_child :
    (tracker.replaceRoots newRootChildren oldNodes).nodes.Child = tracker.nodes.Child := by
  funext ref child
  rw [replaceRoots_nodes]
  unfold Heap.Child Heap.modifyAll
  split_ifs <;> rfl

theorem exposed_child
    (hcollect : tracker.nodes.Collected minimum tracker.rootChildren newRootChildren oldNodes)
    (hold : ref ∈ oldNodes) (hchild : tracker.nodes.Child ref below) :
    ∃ root ∈ tracker.rootChildren, tracker.nodes.Exposed minimum root below := by
  obtain ⟨⟨root, hroot, hpath⟩, hlow⟩ := (hcollect.mem_oldNodes ref).mp hold
  exact ⟨root, hroot, hpath.tail ⟨hlow, hchild⟩⟩

variable (hlinks : tracker.Links)
  (hcollect : tracker.nodes.Collected minimum tracker.rootChildren newRootChildren oldNodes)
include hlinks hcollect

/-- An exposed node is a root child or has an old parent. -/
theorem exposed_parent
    (hexposed : ∃ root ∈ tracker.rootChildren, tracker.nodes.Exposed minimum root ref)
    (hparent : tracker.nodes.parent ref = some above) : above ∈ oldNodes := by
  obtain ⟨root, hroot, hpath⟩ := hexposed
  rcases ReflTransGen.cases_tail hpath with rfl | ⟨previous, hbefore, hlow, hchild⟩
  · rw [hlinks.parent_of_root _ hroot] at hparent
    exact absurd hparent (Option.some_ne_none above).symm
  · have htrack : tracker.Tracked previous := ⟨root, hroot, Heap.Exposed.reached hbefore⟩
    rw [hlinks.parent_of_child previous ref htrack hchild, Option.some.injEq] at hparent
    exact (hcollect.mem_oldNodes above).mpr ⟨⟨root, hroot, hparent ▸ hbefore⟩, hparent ▸ hlow⟩

/-- What stays tracked below the new root children. -/
theorem tracked_collected (ref : ℕ) :
    (∃ root ∈ newRootChildren, ReflTransGen tracker.nodes.Child root ref) ↔
      tracker.Tracked ref ∧ ref ∉ oldNodes := by
  constructor
  · rintro ⟨root, hroot, hpath⟩
    obtain ⟨⟨top, htop, hexposed⟩, hhigh⟩ := (hcollect.mem_descendants root).mp hroot
    have htrack : tracker.Tracked root := ⟨top, htop, hexposed.reached⟩
    refine ⟨htrack.descendant hpath, ?_⟩
    -- Going up from an old node only meets old nodes, and the new root child is none.
    induction hpath with
    | refl => exact fun hold ↦ absurd ((hcollect.mem_oldNodes root).mp hold).2 (not_lt.mpr hhigh)
    | @tail _ last hbefore hstep ih =>
      intro hold
      have hparent := hlinks.parent_of_child _ _ (htrack.descendant hbefore) hstep
      exact ih (exposed_parent hlinks hcollect ((hcollect.mem_oldNodes last).mp hold).1 hparent)
  · rintro ⟨htrack, hkept⟩
    have hdichotomy : ∀ other, (∃ root ∈ tracker.rootChildren,
        tracker.nodes.Exposed minimum root other) → other ∉ oldNodes →
          ∃ root ∈ newRootChildren, ReflTransGen tracker.nodes.Child root other := by
      intro other hexposed hnotOld
      refine ⟨other, (hcollect.mem_descendants other).mpr ⟨hexposed, ?_⟩, .refl⟩
      by_contra hlow
      exact hnotOld ((hcollect.mem_oldNodes other).mpr ⟨hexposed, not_le.mp hlow⟩)
    revert hkept
    refine Tracked.induct ?_ ?_ htrack
    · exact fun root hroot ↦ hdichotomy root ⟨root, hroot, .refl⟩
    · intro other child _ ih hchild hnotOld
      by_cases hother : other ∈ oldNodes
      · exact hdichotomy child (exposed_child hcollect hother hchild) hnotOld
      · obtain ⟨root, hroot, hpath⟩ := ih hother
        exact ⟨root, hroot, hpath.tail hchild⟩

theorem replaceRoots_tracked (ref : ℕ) :
    (tracker.replaceRoots newRootChildren oldNodes).Tracked ref ↔
      tracker.Tracked ref ∧ ref ∉ oldNodes := by
  rw [← tracked_collected hlinks hcollect, Tracked, replaceRoots_child]
  rfl

/-- A kept node is a new root child exactly if its parent is gone or it never had one. -/
theorem mem_newRootChildren_iff (htrack : tracker.Tracked ref) (hkept : ref ∉ oldNodes) :
    ref ∈ newRootChildren ↔ ∀ above, tracker.nodes.parent ref = some above → above ∈ oldNodes := by
  constructor
  · intro hroot _ habove
    exact exposed_parent hlinks hcollect ((hcollect.mem_descendants ref).mp hroot).1 habove
  · intro hgone
    have hexposed : ∃ root ∈ tracker.rootChildren, tracker.nodes.Exposed minimum root ref := by
      cases habove : tracker.nodes.parent ref with
      | none => exact ⟨ref, hlinks.root_of_parent ref htrack habove, .refl⟩
      | some above =>
        exact exposed_child hcollect (hgone above habove)
          (hlinks.child_of_parent ref above htrack habove).2
    refine (hcollect.mem_descendants ref).mpr ⟨hexposed, ?_⟩
    by_contra hlow
    exact hkept ((hcollect.mem_oldNodes ref).mpr ⟨hexposed, not_le.mp hlow⟩)

variable (hash : CryptoHash)

/-- The hashes that are forgotten are those of the old nodes. -/
theorem mem_oldHashes_iff :
    hash ∈ (oldNodes.map fun ref ↦
        ((tracker.replaceRoots newRootChildren oldNodes).nodes ref).hash) ↔
      ∃ ref ∈ oldNodes, tracker.hashToNode hash = some ref := by
  rw [List.mem_map]
  refine exists_congr fun ref ↦ and_congr_right fun hold ↦ ?_
  obtain ⟨⟨root, hroot, hexposed⟩, _⟩ := (hcollect.mem_oldNodes ref).mp hold
  rw [(replaceRoots_marks ref).1, hlinks.index]
  exact ⟨fun hhash ↦ ⟨⟨root, hroot, hexposed.reached⟩, hhash⟩, fun hboth ↦ hboth.2⟩

theorem replaceRoots_hashToNode (ref : ℕ) :
    (tracker.replaceRoots newRootChildren oldNodes).hashToNode hash = some ref ↔
      tracker.hashToNode hash = some ref ∧ ref ∉ oldNodes := by
  have hlookup := foldl_update_none (oldNodes.map fun ref ↦
    ((tracker.replaceRoots newRootChildren oldNodes).nodes ref).hash) tracker.hashToNode hash
  change (tracker.replaceRoots newRootChildren oldNodes).hashToNode hash = _ at hlookup
  simp only [mem_oldHashes_iff hlinks hcollect] at hlookup
  rw [hlookup]
  split_ifs with hold
  · obtain ⟨_, hmem, hother⟩ := hold
    refine ⟨False.elim, fun hboth ↦ ?_⟩
    rw [hother, Option.some.injEq] at hboth
    exact absurd (hboth.1 ▸ hmem) hboth.2
  · exact ⟨fun hfound ↦ ⟨hfound, fun hmem ↦ hold ⟨ref, hmem, hfound⟩⟩, fun hboth ↦ hboth.1⟩

/-- The contents of the nodes that stay. -/
theorem replaceRoots_nodeToContent :
    (tracker.replaceRoots newRootChildren oldNodes).nodeToContent hash =
      if ((tracker.replaceRoots newRootChildren oldNodes).hashToNode hash).isSome
      then tracker.nodeToContent hash else none := by
  have hlookup := foldl_update_none (oldNodes.map fun ref ↦
    ((tracker.replaceRoots newRootChildren oldNodes).nodes ref).hash) tracker.nodeToContent hash
  change (tracker.replaceRoots newRootChildren oldNodes).nodeToContent hash = _ at hlookup
  simp only [mem_oldHashes_iff hlinks hcollect] at hlookup
  rw [hlookup]
  have hsome : ((tracker.replaceRoots newRootChildren oldNodes).hashToNode hash).isSome ↔
      ∃ ref, tracker.hashToNode hash = some ref ∧ ref ∉ oldNodes := by
    rw [Option.isSome_iff_exists]
    exact exists_congr fun ref ↦ replaceRoots_hashToNode hlinks hcollect hash ref
  cases hfound : tracker.hashToNode hash with
  | none =>
    have hcontent := hlinks.content hash
    rw [hfound, Option.isSome_none, Option.isSome_eq_false_iff, Option.isNone_iff_eq_none]
      at hcontent
    simp [hcontent]
  | some ref =>
    by_cases hold : ref ∈ oldNodes <;> simp [hsome, hfound, hold]

theorem replaceRoots_pruning (hminimum : tracker.minimumHeightToKeep = some minimum) :
    Pruning (· ∈ oldNodes) tracker (tracker.replaceRoots newRootChildren oldNodes) := by
  have hparent := @replaceRoots_parent _ tracker newRootChildren oldNodes
  have htrack := replaceRoots_tracked hlinks hcollect
  constructor
  case marks => exact replaceRoots_marks
  case gone_parent =>
    intro ref _ hold
    exact exposed_parent hlinks hcollect ((hcollect.mem_oldNodes ref).mp hold).1
  case gone_low =>
    intro ref hold
    have hlow := ((hcollect.mem_oldNodes ref).mp hold).2
    obtain ⟨head, hhead, rfl⟩ := Option.map_eq_some_iff.mp hminimum
    exact ⟨hlow.trans_le (min_le_left _ _), head, hhead, hlow.trans_le (min_le_right _ _)⟩
  case tracked => exact htrack
  case parent_sub =>
    intro _ _ habove
    rw [hparent] at habove
    split_ifs at habove
    exact habove
  case parent =>
    intro ref above hkept
    obtain ⟨hbefore, hnotOld⟩ := (htrack ref).mp hkept
    have hroot := mem_newRootChildren_iff hlinks hcollect hbefore hnotOld
    rw [hparent]
    split_ifs with hmem
    · refine ⟨False.elim, fun hboth ↦ ?_⟩
      exact absurd (hroot.mp hmem above hboth.1) hboth.2
    · refine ⟨fun habove ↦ ⟨habove, fun hold ↦ hmem (hroot.mpr ?_)⟩, fun hboth ↦ hboth.1⟩
      intro _ hother
      rwa [← Option.some.inj (habove.symm.trans hother)]
  case child => exact replaceRoots_child
  case mem_rootChildren =>
    intro ref
    change ref ∈ newRootChildren ↔ _
    constructor
    · intro hmem
      exact ⟨.of_root hmem, by rw [hparent]; exact if_pos hmem⟩
    · rintro ⟨hkept, hnone⟩
      obtain ⟨hbefore, hnotOld⟩ := (htrack ref).mp hkept
      rw [hparent] at hnone
      by_contra hmem
      rw [if_neg hmem] at hnone
      refine hmem ((mem_newRootChildren_iff hlinks hcollect hbefore hnotOld).mpr ?_)
      exact fun above habove ↦ absurd (hnone.symm.trans habove) (Option.some_ne_none above).symm
  case hashToNode => exact replaceRoots_hashToNode hlinks hcollect
  case nodeToContent => exact replaceRoots_nodeToContent hlinks hcollect
  all_goals rfl

end ReplaceRoots

theorem pruneOldBlocks_eq_ok (hlinks : tracker.Links) :
    ∃ after gone, tracker.pruneOldBlocks = .ok after ∧ Pruning gone tracker after := by
  unfold pruneOldBlocks
  cases hminimum : tracker.minimumHeightToKeep with
  | none => exact ⟨tracker, fun _ ↦ False, rfl, .refl hlinks⟩
  | some minimum =>
    dsimp only
    split_ifs
    · exact ⟨tracker, fun _ ↦ False, rfl, .refl hlinks⟩
    · obtain ⟨_, oldNodes, hfold, hcollect⟩ :=
        @Heap.foldlM_collected tracker.nodes minimum
          (closestDescendantsWithHeightAtLeast tracker.nodes minimum tracker.fuel)
          tracker.rootChildren (fun root hroot lists ↦
            Heap.closestDescendants_collected tracker.fuel root
              (hlinks.lt_allocated root (.of_root hroot)) (by rw [fuel]; omega)
              (hlinks.ascending (.of_root hroot)) lists) ([], [])
      rw [List.nil_append, List.nil_append] at hfold
      rw [hfold, ok_bind]
      exact ⟨_, (· ∈ oldNodes), rfl, replaceRoots_pruning hlinks hcollect hminimum⟩

namespace Pruning

variable {gone : ℕ → Prop}

section

variable (hpruning : Pruning gone before after)
include hpruning

theorem links (hlinks : before.Links) : after.Links := by
  constructor
  case descending =>
    exact fun ref above habove ↦ hlinks.descending ref above (hpruning.parent_sub ref above habove)
  case lt_allocated =>
    intro ref htrack
    rw [hpruning.allocated]
    exact hlinks.lt_allocated ref ((hpruning.tracked ref).mp htrack).1
  case parent_of_root => exact fun ref hroot ↦ ((hpruning.mem_rootChildren ref).mp hroot).2
  case parent_of_child =>
    intro ref child htrack hchild
    obtain ⟨hbefore, hkept⟩ := (hpruning.tracked ref).mp htrack
    refine (hpruning.parent child ref (htrack.child hchild)).mpr ⟨?_, hkept⟩
    rw [hpruning.child] at hchild
    exact hlinks.parent_of_child ref child hbefore hchild
  case child_of_parent =>
    intro ref above htrack habove
    obtain ⟨hparent, hkept⟩ := (hpruning.parent ref above htrack).mp habove
    have hbefore := ((hpruning.tracked ref).mp htrack).1
    obtain ⟨haboveTracked, hchild⟩ := hlinks.child_of_parent ref above hbefore hparent
    refine ⟨(hpruning.tracked above).mpr ⟨haboveTracked, hkept⟩, ?_⟩
    rw [hpruning.child]
    exact hchild
  case root_of_parent =>
    exact fun ref htrack hnone ↦ (hpruning.mem_rootChildren ref).mpr ⟨htrack, hnone⟩
  case index =>
    intro _ ref
    rw [hpruning.hashToNode, hlinks.index, hpruning.tracked, (hpruning.marks ref).1, and_right_comm]
  case content =>
    intro hash
    rw [hpruning.nodeToContent]
    cases hlookup : after.hashToNode hash with
    | none => rfl
    | some ref =>
      have hbefore := ((hpruning.hashToNode hash ref).mp hlookup).1
      have hcontent := hlinks.content hash
      rw [hbefore] at hcontent
      exact hcontent

theorem not_gone_of_lineage (hlinks : before.Links) (hkept : ¬ gone above)
    (hmem : above ∈ lineage before.nodes.parent ref) : ¬ gone ref := by
  rw [mem_lineage_iff_reflTransGen hlinks.descending] at hmem
  induction hmem using ReflTransGen.head_induction_on with
  | refl => exact hkept
  | head hparent _ ih => exact fun hgone ↦ ih (hpruning.gone_parent _ _ hgone hparent)

/-- The ancestors that are left are the same. -/
theorem mem_lineage_iff (hlinks : before.Links) (hafter : after.Links) (htrack : before.Tracked ref)
    (hkept : ¬ gone above) :
    above ∈ lineage after.nodes.parent ref ↔ above ∈ lineage before.nodes.parent ref := by
  constructor
  · intro hmem
    rw [mem_lineage_iff_reflTransGen hafter.descending] at hmem
    rw [mem_lineage_iff_reflTransGen hlinks.descending]
    exact .mono hpruning.parent_sub _ _ hmem
  · intro hmem
    rw [mem_lineage_iff_reflTransGen hafter.descending]
    have hpath := (mem_lineage_iff_reflTransGen hlinks.descending).mp hmem
    clear hmem
    induction hpath using ReflTransGen.head_induction_on with
    | refl => exact .refl
    | @head child middle hparent hpath ih =>
      have hmiddle := (hlinks.child_of_parent _ _ htrack hparent).1
      have hmiddleKept := hpruning.not_gone_of_lineage hlinks hkept
        ((mem_lineage_iff_reflTransGen hlinks.descending).mpr hpath)
      have hchildKept : ¬ gone child := fun hgone ↦
        hmiddleKept (hpruning.gone_parent _ _ hgone hparent)
      have hchild := (hpruning.tracked child).mpr ⟨htrack, hchildKept⟩
      exact .head ((hpruning.parent child middle hchild).mpr ⟨hparent, hmiddleKept⟩) (ih hmiddle)

/-- Nothing as high as the final head is removed. -/
theorem not_gone_of_height
    (hhigh : ∀ head ∈ before.finalHead, (before.nodes head).height ≤ (before.nodes ref).height) :
    ¬ gone ref := by
  intro hgone
  obtain ⟨_, head, hhead, hlow⟩ := hpruning.gone_low ref hgone
  exact absurd hlow (not_lt.mpr (hhigh head hhead))

theorem heads (hlinks : before.Links) (hheads : before.Heads before.allocated) :
    after.Heads after.allocated := by
  have hafter := hpruning.links hlinks
  have hfinalKept : ∀ head ∈ before.finalHead, ¬ gone head := by
    intro _ hhead
    refine hpruning.not_gone_of_height fun other hother ↦ ?_
    rw [Option.mem_unique hother hhead]
  have hcanonicalKept : ∀ head ∈ before.canonicalHead, ¬ gone head := by
    intro head hhead
    refine hpruning.not_gone_of_height fun other hother ↦ ?_
    exact hheads.highest head hhead other
      (hlinks.lt_allocated other (hheads.finalHead_tracked other hother))
  have hheight : ∀ ref, (after.nodes ref).height = (before.nodes ref).height := fun ref ↦
    (hpruning.marks ref).2.1
  constructor
  case canonical =>
    intro ref htrack
    obtain ⟨hbefore, hkept⟩ := (hpruning.tracked ref).mp htrack
    rw [(hpruning.marks ref).2.2.1, hheads.canonical ref hbefore, hpruning.canonicalHead]
    cases hhead : before.canonicalHead with
    | none => rfl
    | some head =>
      have hheadTracked := hheads.canonicalHead_tracked head hhead
      exact (hpruning.mem_lineage_iff hlinks hafter hheadTracked hkept).symm
  case canonicalHead_tracked =>
    intro head hhead
    rw [hpruning.canonicalHead] at hhead
    exact (hpruning.tracked head).mpr
      ⟨hheads.canonicalHead_tracked head hhead, hcanonicalKept head hhead⟩
  case first =>
    rw [hpruning.canonicalHead]
    simpa only [hheight] using hheads.first
  case highest =>
    rw [hpruning.canonicalHead, hpruning.allocated]
    simpa only [hheight] using hheads.highest
  case none_seen =>
    rw [hpruning.canonicalHead, hpruning.allocated]
    exact hheads.none_seen
  case finalHead_tracked =>
    intro head hhead
    rw [hpruning.finalHead] at hhead
    exact (hpruning.tracked head).mpr ⟨hheads.finalHead_tracked head hhead, hfinalKept head hhead⟩

end

end Pruning

/-! ### Adding a block -/

variable {block : BlockViewLite} {content : Content}

theorem addBlock_of_known (hknown : tracker.hashToNode block.hash = some ref) :
    tracker.addBlock block content = .err "Block already exists in the tracker" := by
  simp [addBlock, hknown, require]

/-- Adding an unknown block succeeds: an insertion, a report of a final block, a choice of the
canonical head and a pruning. -/
theorem addBlock_eq_ok (hlinks : tracker.Links) (hheads : tracker.Heads tracker.allocated)
    (content : Content) (hunknown : tracker.hashToNode block.hash = none) :
    ∃ inserted finalized raised after newFinal gone,
      tracker.addBlock block content = .ok (after, newFinal.filterMap fun ref ↦
        (finalized.nodeToContent (finalized.nodes ref).hash).map fun content ↦
          ((finalized.nodes ref).height, content)) ∧
      Insertion block content tracker inserted ∧
      Finalization block.lastFinalBlock inserted finalized newFinal ∧
      Switch finalized raised ∧
      raised.maximumHeightAvailable = max tracker.maximumHeightAvailable block.height ∧
      raised.Heads raised.allocated ∧ Pruning gone raised after := by
  have hinsert := insertNode_insertion hlinks block content
  set inserted := tracker.insertNode block content with hinserted
  have hinsertedLinks := hinsert.links hlinks hunknown
  have hinsertedHeads := hheads.insertion hlinks hinsert hinsertedLinks
  obtain ⟨finalized, newFinal, hfinal, hreport⟩ :=
    maybeUpdateFinalHead_eq_ok hinsertedLinks block.lastFinalBlock
  have hfinalLinks := hinsertedLinks.of_same hreport.links
  have hnew : finalized.Tracked tracker.allocated :=
    (hreport.links.tracked _).mpr ((hinsert.tracked hlinks _).mpr (.inr rfl))
  have hheight : (finalized.nodes tracker.allocated).height = block.height := by
    rw [hreport.links.height]
    exact hinsert.new.2.1
  have hfinalHeads := hinsertedHeads.finalization hinsertedLinks hreport
  obtain ⟨switched, hchoose, hswitch, hmaximum, hswitchedHeads⟩ :=
    chooseCanonicalHead_eq_ok hfinalLinks hfinalHeads hnew hheight
  set raised : RecentBlocksTracker Content :=
    { switched with
      maximumHeightAvailable := max switched.maximumHeightAvailable block.height } with hraised
  have hraisedSwitch : Switch finalized raised :=
    ⟨⟨hswitch.links.parent, hswitch.links.child, hswitch.links.hash, hswitch.links.height,
      hswitch.links.rootChildren, hswitch.links.allocated, hswitch.links.hashToNode,
      hswitch.links.nodeToContent⟩, hswitch.isFinal, hswitch.finalHead, hswitch.windowSize⟩
  have hallocated : raised.allocated = tracker.allocated + 1 := by
    rw [hraisedSwitch.links.allocated, hreport.links.allocated, hinsert.allocated]
  have hraisedHeads : raised.Heads raised.allocated := by
    rw [hallocated]
    exact ⟨hswitchedHeads.canonical, hswitchedHeads.canonicalHead_tracked, hswitchedHeads.first,
      hswitchedHeads.highest, hswitchedHeads.none_seen, hswitchedHeads.finalHead_tracked⟩
  obtain ⟨after, gone, hprune, hpruning⟩ :=
    pruneOldBlocks_eq_ok (hfinalLinks.of_same hraisedSwitch.links)
  refine ⟨inserted, finalized, raised, after, newFinal, gone, ?_, hinsert, hreport,
    hraisedSwitch, ?_, hraisedHeads, hpruning⟩
  · have hfresh : (tracker.hashToNode block.hash).isNone = true := by rw [hunknown]; rfl
    unfold addBlock
    simp only [require_pos hfresh, ok_bind, ← hinserted, hfinal, hchoose, ← hraised, hprune,
      pure_eq]
  · rw [hraised, hmaximum, hreport.maximumHeightAvailable, hinsert.maximumHeightAvailable]

/-- A larger height that was heard of only prunes. -/
theorem notifyMaximumHeightAvailable_eq_ok (hlinks : tracker.Links) (height : ℕ) :
    ∃ after gone, tracker.notifyMaximumHeightAvailable height = .ok after ∧
      Pruning gone { tracker with
        maximumHeightAvailable := max tracker.maximumHeightAvailable height } after := by
  unfold notifyMaximumHeightAvailable
  have hsame : ∀ maximum, Links { tracker with maximumHeightAvailable := maximum } := fun maximum ↦
    hlinks.of_same ⟨rfl, rfl, fun _ ↦ rfl, fun _ ↦ rfl, rfl, rfl, rfl, rfl⟩
  split_ifs with hhigher
  · rw [max_eq_right hhigher.le]
    exact pruneOldBlocks_eq_ok (hsame height)
  · rw [max_eq_left (not_lt.mp hhigher)]
    exact ⟨tracker, fun _ ↦ False, rfl, .refl hlinks⟩

/-- The nodes are the added blocks, the reference of a node being the place of its block. -/
structure Records (tracker : RecentBlocksTracker Content) (added : List (BlockViewLite × Content)) :
    Prop where
  links : tracker.Links
  heads : tracker.Heads tracker.allocated
  allocated : tracker.allocated = added.length
  node : ∀ ref block content, added[ref]? = some (block, content) →
    (tracker.nodes ref).hash = block.hash ∧ (tracker.nodes ref).height = block.height
  parent : ∀ ref above block content, added[ref]? = some (block, content) →
    tracker.nodes.parent ref = some above → (tracker.nodes above).hash = block.prevHash
  content : ∀ ref block content, tracker.Tracked ref → added[ref]? = some (block, content) →
    tracker.nodeToContent block.hash = some content

namespace Records

variable {added : List (BlockViewLite × Content)}

theorem new (windowSize : ℕ+) : (new windowSize : RecentBlocksTracker Content).Records [] := by
  have huntracked : ∀ ref, ¬ (.new windowSize :
      RecentBlocksTracker Content).Tracked ref := by
    rintro _ ⟨_, hroot, _⟩
    exact absurd hroot List.not_mem_nil
  constructor
  case links =>
    constructor
    case descending => exact fun ref above habove ↦ absurd habove.symm (Option.some_ne_none above)
    case index =>
      exact fun hash ref ↦
        ⟨fun hnone ↦ absurd hnone.symm (Option.some_ne_none ref), fun hboth ↦
          absurd hboth.1 (huntracked ref)⟩
    case content => exact fun _ ↦ rfl
    case parent_of_root => exact fun _ hroot ↦ absurd hroot List.not_mem_nil
    all_goals exact fun ref ↦ by simp [huntracked]
  case heads =>
    constructor
    case none_seen => exact fun _ ↦ rfl
    case canonical => exact fun ref htrack ↦ absurd htrack (huntracked ref)
    all_goals exact fun head hhead ↦ absurd hhead (Option.not_mem_none head)
  case allocated => rfl
  all_goals simp

theorem exists_added (hrecord : tracker.Records added) (htrack : tracker.Tracked ref) :
    ∃ block content, added[ref]? = some (block, content) := by
  have hlt := hrecord.links.lt_allocated ref htrack
  rw [hrecord.allocated] at hlt
  exact ⟨_, _, List.getElem?_eq_getElem hlt⟩

theorem added_lt (hrecord : tracker.Records added) (hadded : added[ref]? = some (block, content)) :
    ref < tracker.allocated := by
  rw [hrecord.allocated]
  exact (List.getElem?_eq_some_iff.mp hadded).1

/-- Marks and heads do not matter to the record. -/
theorem of_same (hrecord : before.Records added) (hsame : SameLinks before after)
    (hheads : after.Heads after.allocated) : after.Records added where
  links := hrecord.links.of_same hsame
  heads := hheads
  allocated := hsame.allocated.trans hrecord.allocated
  node := by
    intro ref block content hadded
    rw [hsame.hash, hsame.height]
    exact hrecord.node ref block content hadded
  parent := by
    intro ref above block content hadded habove
    rw [hsame.parent] at habove
    rw [hsame.hash]
    exact hrecord.parent ref above block content hadded habove
  content := by
    intro ref block content htrack hadded
    rw [hsame.tracked] at htrack
    rw [hsame.nodeToContent]
    exact hrecord.content ref block content htrack hadded

/-- Neither does the height that was heard of. -/
theorem withMaximum (hrecord : tracker.Records added) (maximum : ℕ) :
    Records { tracker with maximumHeightAvailable := maximum } added := by
  refine hrecord.of_same ⟨rfl, rfl, fun _ ↦ rfl, fun _ ↦ rfl, rfl, rfl, rfl, rfl⟩ ?_
  exact ⟨hrecord.heads.canonical, hrecord.heads.canonicalHead_tracked, hrecord.heads.first,
    hrecord.heads.highest, hrecord.heads.none_seen, hrecord.heads.finalHead_tracked⟩

theorem pruning {gone : ℕ → Prop} (hrecord : before.Records added)
    (hpruning : Pruning gone before after) : after.Records added where
  links := hpruning.links hrecord.links
  heads := hpruning.heads hrecord.links hrecord.heads
  allocated := hpruning.allocated.trans hrecord.allocated
  node := by
    intro ref block content hadded
    rw [(hpruning.marks ref).1, (hpruning.marks ref).2.1]
    exact hrecord.node ref block content hadded
  parent := by
    intro ref above block content hadded habove
    rw [(hpruning.marks above).1]
    exact hrecord.parent ref above block content hadded (hpruning.parent_sub ref above habove)
  content := by
    intro ref block content htrack hadded
    have hlookup := ((hpruning.links hrecord.links).index block.hash ref).mpr
      ⟨htrack, by rw [(hpruning.marks ref).1]; exact (hrecord.node ref block content hadded).1⟩
    rw [hpruning.nodeToContent, hlookup]
    exact hrecord.content ref block content ((hpruning.tracked ref).mp htrack).1 hadded

/-- The added block is the last one of the record. -/
theorem insertion {raised} (hrecord : before.Records added)
    (hunknown : before.hashToNode block.hash = none)
    (hinsert : Insertion block content before after) (hsame : SameLinks after raised)
    (hheads : raised.Heads raised.allocated) : raised.Records (added ++ [(block, content)]) := by
  have hlinks := hrecord.links
  have hlast : before.allocated = added.length := hrecord.allocated
  have hplace : ∀ ref other text, (added ++ [(block, content)])[ref]? = some (other, text) →
      (ref ≠ before.allocated ∧ added[ref]? = some (other, text)) ∨
        (ref = before.allocated ∧ other = block ∧ text = content) := by
    intro ref _ _ hadded
    rw [hlast]
    rcases Nat.lt_trichotomy ref added.length with hlt | rfl | hgt
    · rw [List.getElem?_append_left hlt] at hadded
      exact .inl ⟨hlt.ne, hadded⟩
    · rw [List.getElem?_concat_length, Option.some.injEq, Prod.mk.injEq] at hadded
      exact .inr ⟨rfl, hadded.1.symm, hadded.2.symm⟩
    · rw [List.getElem?_eq_none (by simp; omega)] at hadded
      exact absurd hadded.symm (Option.some_ne_none _)
  constructor
  case links => exact (hinsert.links hlinks hunknown).of_same hsame
  case heads => exact hheads
  case allocated =>
    rw [hsame.allocated, hinsert.allocated, hlast, List.length_append, List.length_singleton]
  case node =>
    intro ref other text hadded
    rw [hsame.hash, hsame.height]
    rcases hplace ref other text hadded with ⟨hold, hadded⟩ | ⟨rfl, rfl, rfl⟩
    · rw [(hinsert.old ref hold).1, (hinsert.old ref hold).2.1]
      exact hrecord.node ref other text hadded
    · exact ⟨hinsert.new.1, hinsert.new.2.1⟩
  case parent =>
    intro ref above other text hadded habove
    rw [hsame.parent, hinsert.parent] at habove
    rw [hsame.hash]
    have hoff : ∀ other, other < before.allocated →
        (after.nodes other).hash = (before.nodes other).hash := fun other hlt ↦
      (hinsert.old other hlt.ne).1
    rcases hplace ref other text hadded with ⟨hold, hadded⟩ | ⟨rfl, rfl, rfl⟩
    · rw [Function.update_of_ne hold] at habove
      have hlt := hlinks.descending ref above habove
      rw [hoff above (hlt.trans (hrecord.added_lt hadded))]
      exact hrecord.parent ref above other text hadded habove
    · rw [Function.update_self] at habove
      have hparent := (hlinks.index _ _).mp habove
      rw [hoff above (hlinks.lt_allocated above hparent.1)]
      exact hparent.2
  case content =>
    intro ref other text htrack hadded
    rw [hsame.tracked, hinsert.tracked hlinks] at htrack
    rw [hsame.nodeToContent, hinsert.nodeToContent]
    rcases hplace ref other text hadded with ⟨hold, hadded⟩ | ⟨rfl, rfl, rfl⟩
    · have htrackedBefore := htrack.resolve_right hold
      have hlookup := (hlinks.index _ ref).mpr
        ⟨htrackedBefore, (hrecord.node ref other text hadded).1⟩
      have hne : other.hash ≠ block.hash := by
        intro hsameHash
        rw [hsameHash, hunknown] at hlookup
        exact absurd hlookup.symm (Option.some_ne_none ref)
      rw [Function.update_of_ne hne]
      exact hrecord.content ref other text htrackedBefore hadded
    · rw [Function.update_self]

end Records

end RecentBlocksTracker

/-! ### Histories of the tracker -/

/-- A call of the tracker. -/
inductive TrackerCall (Content : Type) where
  | addBlock (block : BlockViewLite) (content : Content)
  | notifyMaximumHeightAvailable (height : ℕ)

/-- The tracker with the blocks that were added to it and the final blocks it returned, both oldest
first. -/
structure TrackerHistory (Content : Type) where
  tracker : RecentBlocksTracker Content
  added : List (BlockViewLite × Content)
  stream : List (ℕ × Content)

namespace TrackerHistory

variable {Content : Type}

def start (windowSize : ℕ+) : TrackerHistory Content where
  tracker := .new windowSize
  added := []
  stream := []

/-- A block that is refused changes nothing. -/
def step (history : TrackerHistory Content) : TrackerCall Content →
    NodeResult (TrackerHistory Content)
  | .addBlock block content =>
      match history.tracker.addBlock block content with
      | .ok (tracker, newFinalBlocks) =>
          .ok
            { tracker
              added := history.added ++ [(block, content)]
              stream := history.stream ++ newFinalBlocks }
      | .err _ => .ok history
      | .panicked => .panicked
  | .notifyMaximumHeightAvailable height => do
      let tracker ← history.tracker.notifyMaximumHeightAvailable height
      return { history with tracker }

/-- The history after the given calls. -/
def run (windowSize : ℕ+) (calls : List (TrackerCall Content)) :
    NodeResult (TrackerHistory Content) :=
  calls.foldlM step (start windowSize)

variable {history : TrackerHistory Content}

theorem step_records (hrecord : history.tracker.Records history.added)
    (call : TrackerCall Content) :
    ∃ next, history.step call = .ok next ∧ next.tracker.Records next.added := by
  cases call with
  | addBlock block content =>
    cases hlookup : history.tracker.hashToNode block.hash with
    | some =>
      refine ⟨history, ?_, hrecord⟩
      rw [step, RecentBlocksTracker.addBlock_of_known hlookup]
    | none =>
      obtain ⟨_, _, _, _, _, _, hadd, hinsert, hreport,
        hswitch, -, hheads, hpruning⟩ :=
          RecentBlocksTracker.addBlock_eq_ok hrecord.links hrecord.heads content hlookup
      have hraised := hrecord.insertion hlookup hinsert (hreport.links.trans hswitch.links) hheads
      exact ⟨_, by rw [step, hadd], hraised.pruning hpruning⟩
  | notifyMaximumHeightAvailable height =>
    obtain ⟨after, _, hnotify, hpruning⟩ :=
      RecentBlocksTracker.notifyMaximumHeightAvailable_eq_ok hrecord.links height
    exact ⟨{ history with tracker := after }, by rw [step, hnotify]; rfl,
      (hrecord.withMaximum _).pruning hpruning⟩

theorem run_records (windowSize : ℕ+) (calls : List (TrackerCall Content)) :
    ∃ last, run windowSize calls = .ok last ∧ last.tracker.Records last.added :=
  foldlM_returns step_records (.new windowSize) calls

end TrackerHistory

/-- The tracker represents the blocks added so far, oldest first. -/
structure RepresentsBlocks {Content : Type} (tracker : RecentBlocksTracker Content)
    (added : List (BlockViewLite × Content)) : Prop where
  index_iff_content : ∀ hash,
    (tracker.hashToNode hash).isSome ↔ (tracker.nodeToContent hash).isSome
  index_iff_tracked : ∀ hash ref, tracker.hashToNode hash = some ref ↔
    tracker.Tracked ref ∧ (tracker.nodes ref).hash = hash
  tracked_added : ∀ ref, tracker.Tracked ref → ∃ block content,
    added[ref]? = some (block, content) ∧ (tracker.nodes ref).hash = block.hash ∧
      (tracker.nodes ref).height = block.height ∧ tracker.nodeToContent block.hash = some content
  parent_iff_child : ∀ ref above, tracker.Tracked ref → tracker.Tracked above →
    (tracker.nodes.parent ref = some above ↔ tracker.nodes.Child above ref)
  parent_tracked : ∀ ref above, tracker.Tracked ref → tracker.nodes.parent ref = some above →
    tracker.Tracked above
  parentless_iff_root : ∀ ref, tracker.Tracked ref →
    (tracker.nodes.parent ref = none ↔ ref ∈ tracker.rootChildren)
  acyclic : ∀ ref, ¬ TransGen (fun child above ↦ tracker.nodes.parent child = some above) ref ref
  canonical_iff : ∀ ref, tracker.Tracked ref → ((tracker.nodes ref).canonical = true ↔
    ∃ head, tracker.canonicalHead = some head ∧
      ReflTransGen (fun child above ↦ tracker.nodes.parent child = some above) head ref)
  head_tracked : ∀ head, tracker.canonicalHead = some head → tracker.Tracked head
  head_is_first_highest : ∀ head, tracker.canonicalHead = some head →
    ∃ earlier block content later, added = earlier ++ (block, content) :: later ∧
      head = earlier.length ∧ (∀ other ∈ earlier, other.1.height < block.height) ∧
      ∀ other ∈ later, other.1.height ≤ block.height
  headless : tracker.canonicalHead = none → added = []

namespace RecentBlocksTracker

variable {Content : Type} {tracker : RecentBlocksTracker Content}
  {added : List (BlockViewLite × Content)}

/-- The head in the list of the added blocks. -/
theorem Records.first_highest (hrecord : tracker.Records added) {head}
    (hhead : tracker.canonicalHead = some head) :
    ∃ earlier block content later, added = earlier ++ (block, content) :: later ∧
      head = earlier.length ∧ (∀ other ∈ earlier, other.1.height < block.height) ∧
      ∀ other ∈ later, other.1.height ≤ block.height := by
  have htrack := hrecord.heads.canonicalHead_tracked head hhead
  have hlt := hrecord.links.lt_allocated head htrack
  rw [hrecord.allocated] at hlt
  have hnode : ∀ place (hplace : place < added.length),
      (tracker.nodes place).height = (added[place]).1.height := fun place hplace ↦
    (hrecord.node place _ _ (List.getElem?_eq_getElem hplace)).2
  refine ⟨added.take head, added[head].1, added[head].2, added.drop (head + 1), ?_, ?_, ?_, ?_⟩
  · rw [← List.drop_eq_getElem_cons hlt, List.take_append_drop]
  · rw [List.length_take, min_eq_left hlt.le]
  · intro _ hother
    obtain ⟨place, _, rfl⟩ := List.mem_take_iff_getElem.mp hother
    have hless : place < head := by omega
    rw [← hnode place (by omega), ← hnode head hlt]
    exact hrecord.heads.first head hhead place hless
  · intro _ hother
    obtain ⟨_, _, rfl⟩ := List.mem_drop_iff_getElem.mp hother
    rw [← hnode _ (by omega), ← hnode head hlt]
    refine hrecord.heads.highest head hhead _ ?_
    rw [hrecord.allocated]
    omega

theorem Records.represents (hrecord : tracker.Records added) : RepresentsBlocks tracker added := by
  have hlinks := hrecord.links
  constructor
  case index_iff_content => exact fun hash ↦ by rw [hlinks.content]
  case index_iff_tracked => exact hlinks.index
  case tracked_added =>
    intro ref htrack
    obtain ⟨block, content, hadded⟩ := hrecord.exists_added htrack
    obtain ⟨hhash, hheight⟩ := hrecord.node ref block content hadded
    exact ⟨block, content, hadded, hhash, hheight, hrecord.content ref block content htrack hadded⟩
  case parent_iff_child =>
    intro ref above htrack habove
    exact ⟨fun hparent ↦ (hlinks.child_of_parent ref above htrack hparent).2,
      hlinks.parent_of_child above ref habove⟩
  case parent_tracked =>
    exact fun ref above htrack hparent ↦ (hlinks.child_of_parent ref above htrack hparent).1
  case parentless_iff_root =>
    exact fun ref htrack ↦ ⟨hlinks.root_of_parent ref htrack, hlinks.parent_of_root ref⟩
  case acyclic =>
    have hless : ∀ first last, TransGen (fun child above ↦ tracker.nodes.parent child = some above)
        first last → last < first := by
      intro _ _ hpath
      induction hpath with
      | single hparent => exact hlinks.descending _ _ hparent
      | tail _ hparent ih => exact (hlinks.descending _ _ hparent).trans ih
    exact fun ref hcycle ↦ lt_irrefl ref (hless ref ref hcycle)
  case canonical_iff =>
    intro ref htrack
    rw [hrecord.heads.canonical ref htrack]
    cases hhead : tracker.canonicalHead with
    | none => simp
    | some =>
      rw [lineage?_some, mem_lineage_iff_reflTransGen hlinks.descending]
      simp
  case head_tracked => exact fun head hhead ↦ hrecord.heads.canonicalHead_tracked head hhead
  case head_is_first_highest => exact fun head hhead ↦ hrecord.first_highest hhead
  case headless =>
    intro hnone
    have hempty := hrecord.heads.none_seen hnone
    rw [hrecord.allocated] at hempty
    exact List.eq_nil_of_length_eq_zero hempty

end RecentBlocksTracker

/-- After any calls the tracker represents the blocks added so far, and no call has failed to
return. -/
theorem recentBlocks_represented {Content : Type} (windowSize : ℕ+)
    (calls : List (TrackerCall Content)) :
    ∃ history, TrackerHistory.run windowSize calls = .ok history ∧
      RepresentsBlocks history.tracker history.added := by
  obtain ⟨history, hrun, hrecord⟩ := TrackerHistory.run_records windowSize calls
  exact ⟨history, hrun, hrecord.represents⟩

end NearMpc.Node
