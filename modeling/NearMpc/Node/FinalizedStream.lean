import NearMpc.Node.BlockPruning

/-!
# The stream of final blocks

The final blocks that the tracker returns call by call, put one after the other. The blocks added so
far are known by their places in the order of addition, which are also the references of their
nodes.

The indexer gives a parent before its children, and the blocks that are reported final lie on one
chain (`IndexerGuarantees`). A tracked node has then adopted every child that was ever added for it
(`Adopts`): a child finds its parent as long as that is tracked, and is not removed before it. So
two tracked nodes that lie on one chain by their hashes also do so by their links
(`Adopts.mem_lineage`), and a walk up from a newly reported block meets the last block of the stream
before any other final one.
-/

set_option autoImplicit false

namespace NearMpc.Node

open Library Library.Outcome Relation RecentBlocksTracker TrackerHistory

/-! ### What the indexer guarantees -/

variable (blocks : List BlockViewLite)

/-- The block in the second place is the parent of the block in the first. -/
def ParentPlace (child above : ℕ) : Prop :=
  ∃ block parent, blocks[child]? = some block ∧ blocks[above]? = some parent ∧
    block.prevHash = parent.hash

/-- Following parents from the first place leads to the block in the second. -/
def Descends (place ancestor : ℕ) : Prop :=
  ∃ meeting, ReflTransGen (ParentPlace blocks) place meeting ∧
    blocks[meeting]?.map BlockViewLite.hash = blocks[ancestor]?.map BlockViewLite.hash

/-- Some block reports the block in this place as final. -/
def ReportedFinal (place : ℕ) : Prop :=
  ∃ block, blocks[place]? = some block ∧
    ∃ reporter ∈ blocks, reporter.lastFinalBlock = block.hash

/-- What the indexer guarantees about the blocks it gives, oldest first. -/
structure IndexerGuarantees (blocks : List BlockViewLite) : Prop where
  parents_first : ∀ child above, ParentPlace blocks child above → above < child
  one_final_chain : ∀ first second, ReportedFinal blocks first → ReportedFinal blocks second →
    Descends blocks first second ∨ Descends blocks second first

/-- A block is higher than its parent. -/
def HeightsAscend : Prop :=
  ∀ block ∈ blocks, ∀ parent ∈ blocks, block.prevHash = parent.hash → parent.height < block.height

section Guarantees

variable {blocks later : List BlockViewLite} {child above place ancestor : ℕ}

theorem ParentPlace.lt_length (hparent : ParentPlace blocks child above) :
    child < blocks.length ∧ above < blocks.length := by
  obtain ⟨_, _, hchild, habove, -⟩ := hparent
  exact ⟨(List.getElem?_eq_some_iff.mp hchild).1, (List.getElem?_eq_some_iff.mp habove).1⟩

instance : Decidable (ParentPlace blocks child above) :=
  decidable_of_iff (∃ block ∈ blocks[child]?, ∃ parent ∈ blocks[above]?,
    block.prevHash = parent.hash) (by simp only [ParentPlace, Option.mem_def, exists_and_left])

instance : Decidable (ReportedFinal blocks place) :=
  inferInstanceAs (Decidable (∃ block ∈ blocks[place]?,
    ∃ reporter ∈ blocks, reporter.lastFinalBlock = block.hash))

/-- When of two reported blocks one is the other or its parent, the guarantees can be decided. -/
theorem IndexerGuarantees.of_parents
    (hfirst : ∀ child < blocks.length, ∀ above < blocks.length,
      ParentPlace blocks child above → above < child)
    (hreports : ∀ first < blocks.length, ∀ second < blocks.length,
      ReportedFinal blocks first → ReportedFinal blocks second →
        first = second ∨ ParentPlace blocks first second ∨ ParentPlace blocks second first) :
    IndexerGuarantees blocks where
  parents_first := fun child above hparent ↦
    hfirst child hparent.lt_length.1 above hparent.lt_length.2 hparent
  one_final_chain := by
    intro first second hone hother
    rcases hreports first (List.getElem?_eq_some_iff.mp hone.choose_spec.1).1 second
      (List.getElem?_eq_some_iff.mp hother.choose_spec.1).1 hone hother with rfl | hup | hup
    · exact .inl ⟨first, .refl, rfl⟩
    · exact .inl ⟨second, .single hup, rfl⟩
    · exact .inr ⟨first, .single hup, rfl⟩

theorem ParentPlace.append (hparent : ParentPlace blocks child above) :
    ParentPlace (blocks ++ later) child above := by
  obtain ⟨hchildLt, haboveLt⟩ := hparent.lt_length
  obtain ⟨block, parent, hchild, habove, hhash⟩ := hparent
  refine ⟨block, parent, ?_, ?_, hhash⟩
  · rw [List.getElem?_append_left hchildLt, hchild]
  · rw [List.getElem?_append_left haboveLt, habove]

theorem ParentPlace.of_append (hparent : ParentPlace (blocks ++ later) child above)
    (hchild : child < blocks.length) (habove : above < blocks.length) :
    ParentPlace blocks child above := by
  unfold ParentPlace at hparent ⊢
  rwa [List.getElem?_append_left hchild, List.getElem?_append_left habove] at hparent

theorem ReportedFinal.append (hreported : ReportedFinal blocks place) :
    ReportedFinal (blocks ++ later) place := by
  obtain ⟨block, hblock, reporter, hreporter, hhash⟩ := hreported
  have hlt := (List.getElem?_eq_some_iff.mp hblock).1
  refine ⟨block, ?_, reporter, List.mem_append_left later hreporter, hhash⟩
  rw [List.getElem?_append_left hlt, hblock]

section

variable (hfirst : ∀ child above, ParentPlace (blocks ++ later) child above → above < child)
  (hplace : place < blocks.length)
include hfirst hplace

/-- Parents come first, so that a way up from an early block stays among the early blocks. -/
theorem reflTransGen_of_append
    (hpath : ReflTransGen (ParentPlace (blocks ++ later)) place ancestor) :
    ancestor < blocks.length ∧ ReflTransGen (ParentPlace blocks) place ancestor := by
  induction hpath with
  | refl => exact ⟨hplace, .refl⟩
  | tail _ hparent ih =>
    have habove := (hfirst _ _ hparent).trans ih.1
    exact ⟨habove, ih.2.tail (hparent.of_append ih.1 habove)⟩

theorem Descends.of_append (hancestor : ancestor < blocks.length)
    (hdescends : Descends (blocks ++ later) place ancestor) : Descends blocks place ancestor := by
  obtain ⟨meeting, hpath, hhash⟩ := hdescends
  obtain ⟨hmeeting, hpath⟩ := reflTransGen_of_append hfirst hplace hpath
  rw [List.getElem?_append_left hmeeting, List.getElem?_append_left hancestor] at hhash
  exact ⟨meeting, hpath, hhash⟩

end

/-- The guarantees hold for the blocks given so far. -/
theorem IndexerGuarantees.of_append (hguarantees : IndexerGuarantees (blocks ++ later)) :
    IndexerGuarantees blocks where
  parents_first := fun child above hparent ↦ hguarantees.parents_first child above hparent.append
  one_final_chain := by
    intro first second hfirst hsecond
    have hfirstLt : first < blocks.length := (List.getElem?_eq_some_iff.mp hfirst.choose_spec.1).1
    have hsecondLt : second < blocks.length :=
      (List.getElem?_eq_some_iff.mp hsecond.choose_spec.1).1
    refine (hguarantees.one_final_chain first second hfirst.append hsecond.append).imp ?_ ?_
    · exact Descends.of_append hguarantees.parents_first hfirstLt hsecondLt
    · exact Descends.of_append hguarantees.parents_first hsecondLt hfirstLt

end Guarantees

namespace RecentBlocksTracker

variable {Content : Type} {tracker before after : RecentBlocksTracker Content}
  {added : List (BlockViewLite × Content)} {ref above : ℕ}

/-! ### Adoption -/

/-- A tracked node has adopted every child that was added after it. -/
def Adopts (tracker : RecentBlocksTracker Content) (added : List (BlockViewLite × Content)) :
    Prop :=
  ∀ ref child block content, tracker.Tracked ref → ref < child →
    added[child]? = some (block, content) → block.prevHash = (tracker.nodes ref).hash →
    tracker.Tracked child ∧ tracker.nodes.parent child = some ref

variable {gone : ℕ → Prop}

theorem Adopts.pruning (hadopts : before.Adopts added) (hprune : Pruning gone before after) :
    after.Adopts added := by
  intro ref child block content htrack hlt hadded hhash
  obtain ⟨hbefore, hkept⟩ := (hprune.tracked ref).mp htrack
  rw [(hprune.marks ref).1] at hhash
  obtain ⟨hchild, hparent⟩ := hadopts ref child block content hbefore hlt hadded hhash
  have hchildKept : ¬ gone child := fun hgone ↦ hkept (hprune.gone_parent _ _ hgone hparent)
  have hchildAfter := (hprune.tracked child).mpr ⟨hchild, hchildKept⟩
  exact ⟨hchildAfter, (hprune.parent child ref hchildAfter).mpr ⟨hparent, hkept⟩⟩

theorem Adopts.of_same (hadopts : before.Adopts added) (hsame : SameLinks before after) :
    after.Adopts added := by
  intro ref child block content htrack hlt hadded hhash
  rw [hsame.hash] at hhash
  rw [hsame.tracked] at htrack
  rw [hsame.tracked, hsame.parent]
  exact hadopts ref child block content htrack hlt hadded hhash

/-- What is added in a place of a longer list. -/
theorem added_cases {entry place other} (hadded : (added ++ [entry])[place]? = some other) :
    (place < added.length ∧ added[place]? = some other) ∨
      (place = added.length ∧ other = entry) := by
  rcases Nat.lt_trichotomy place added.length with hlt | rfl | hgt
  · rw [List.getElem?_append_left hlt] at hadded
    exact .inl ⟨hlt, hadded⟩
  · rw [List.getElem?_concat_length, Option.some.injEq] at hadded
    exact .inr ⟨rfl, hadded.symm⟩
  · rw [List.getElem?_eq_none (by simp; omega)] at hadded
    exact absurd hadded.symm (Option.some_ne_none _)

variable {block : BlockViewLite} {content : Content}

theorem Adopts.insertion {raised} (hadopts : before.Adopts added) (hrecord : before.Records added)
    (hinsert : Insertion block content before after) (hsame : SameLinks after raised) :
    raised.Adopts (added ++ [(block, content)]) := by
  have hlinks := hrecord.links
  intro ref child other text htrack hlt hadded hhash
  rw [hsame.tracked, hinsert.tracked hlinks] at htrack
  rw [hsame.tracked, hinsert.tracked hlinks, hsame.parent, hinsert.parent]
  rw [hsame.hash] at hhash
  rcases added_cases hadded with ⟨hchildLt, hadded⟩ | ⟨hchildEq, heq⟩
  · rw [← hrecord.allocated] at hchildLt
    have hrefTracked := htrack.resolve_right (by omega)
    rw [(hinsert.old ref (by omega)).1] at hhash
    obtain ⟨hchild, hparent⟩ := hadopts ref child other text hrefTracked hlt hadded hhash
    rw [Function.update_of_ne hchildLt.ne]
    exact ⟨.inl hchild, hparent⟩
  · rw [← hrecord.allocated] at hchildEq
    subst hchildEq
    obtain ⟨rfl, rfl⟩ := Prod.mk.inj heq
    have hrefTracked := htrack.resolve_right hlt.ne
    rw [(hinsert.old ref hlt.ne).1] at hhash
    rw [Function.update_self]
    exact ⟨.inr rfl, (hlinks.index _ _).mpr ⟨hrefTracked, hhash.symm⟩⟩

/-- Tracked nodes on one chain by their hashes are so by their links. -/
theorem Adopts.mem_lineage (hadopts : tracker.Adopts added) (hrecord : tracker.Records added)
    (hfirst : ∀ child above, ParentPlace (added.map Prod.fst) child above → above < child)
    (htrack : tracker.Tracked ref) (habove : tracker.Tracked above)
    (hdescends : Descends (added.map Prod.fst) ref above) :
    above ∈ lineage tracker.nodes.parent ref := by
  obtain ⟨meeting, hpath, hmeeting⟩ := hdescends
  have hhash : ∀ place, tracker.Tracked place →
      (added.map Prod.fst)[place]?.map BlockViewLite.hash = some (tracker.nodes place).hash := by
    intro place hplace
    obtain ⟨block, content, hadded⟩ := hrecord.exists_added hplace
    rw [List.getElem?_map, hadded, (hrecord.node place block content hadded).1]
    rfl
  -- From the meeting place down to `ref`, every place on the way is tracked below `above`.
  have hbelow : ∀ place, ReflTransGen (ParentPlace (added.map Prod.fst)) place meeting →
      ∃ node, tracker.Tracked node ∧ above ∈ lineage tracker.nodes.parent node ∧
        (added.map Prod.fst)[place]?.map BlockViewLite.hash = some (tracker.nodes node).hash := by
    intro place hplace
    induction hplace using ReflTransGen.head_induction_on with
    | refl => exact ⟨above, habove, mem_lineage_self above, hmeeting.trans (hhash above habove)⟩
    | @head place _ hparent _ ih =>
      obtain ⟨node, hnode, hlineage, hnodeHash⟩ := ih
      obtain ⟨block, _, hblock, hmiddle, hprev⟩ := hparent
      rw [hmiddle, Option.map_some, Option.some.injEq] at hnodeHash
      have hnodePlace : ParentPlace (added.map Prod.fst) place node := by
        obtain ⟨nodeBlock, text, hadded⟩ := hrecord.exists_added hnode
        refine ⟨block, nodeBlock, hblock, by rw [List.getElem?_map, hadded]; rfl, ?_⟩
        rw [hprev, hnodeHash, (hrecord.node node nodeBlock text hadded).1]
      obtain ⟨⟨_, content⟩, hadded, rfl⟩ :=
        Option.map_eq_some_iff.mp ((List.getElem?_map).symm.trans hblock)
      obtain ⟨hplace, hparent⟩ := hadopts node place _ content hnode
        (hfirst place node hnodePlace) hadded (hprev.trans hnodeHash)
      refine ⟨place, hplace, ?_, hhash place hplace⟩
      exact (mem_lineage_iff hrecord.links.descending).mpr (.inr ⟨node, hparent, hlineage⟩)
  obtain ⟨_, hnode, hlineage, hnodeHash⟩ := hbelow ref hpath
  rw [hhash ref htrack, Option.some.injEq] at hnodeHash
  rw [hrecord.links.eq_of_hash htrack hnode hnodeHash]
  exact hlineage

/-! ### The final chain -/

/-- The blocks in the given places are the final ones, in the order of the stream. -/
structure FinalChain (tracker : RecentBlocksTracker Content)
    (added : List (BlockViewLite × Content)) (places : List ℕ) : Prop where
  adopts : tracker.Adopts added
  isFinal_iff : ∀ ref, tracker.Tracked ref →
    ((tracker.nodes ref).isFinal = true ↔ ref ∈ places)
  closed : ∀ ref above, tracker.Tracked ref → (tracker.nodes ref).isFinal = true →
    above ∈ lineage tracker.nodes.parent ref → (tracker.nodes above).isFinal = true
  lt_allocated : ∀ place ∈ places, place < tracker.allocated
  contiguous : places.IsChain fun earlier later ↦ ParentPlace (added.map Prod.fst) later earlier
  last_tracked : ∀ last ∈ places.getLast?, tracker.Tracked last
  last_reported : ∀ last ∈ places.getLast?, ReportedFinal (added.map Prod.fst) last
  ancestors : ∀ last ∈ places.getLast?, ∀ place ∈ places, tracker.Tracked place →
    place ∈ lineage tracker.nodes.parent last
  finalHead_mem : ∀ head ∈ tracker.finalHead, head ∈ places

namespace Finalization

variable {reported : CryptoHash} {newFinal : List ℕ}
  (hfinalization : Finalization reported before after newFinal)
include hfinalization

theorem newFinal_of_some (hlookup : before.hashToNode reported = some ref) :
    newFinal = ((lineage before.nodes.parent ref).takeWhile
      fun other ↦ !(before.nodes other).isFinal).reverse := by
  rw [hfinalization.newFinal_eq, hlookup, lineage?_some]

theorem tracked_of_mem (hlinks : before.Links) (hmem : ref ∈ newFinal) : before.Tracked ref := by
  cases hlookup : before.hashToNode reported with
  | none =>
    rw [hfinalization.newFinal_eq, hlookup] at hmem
    exact absurd hmem List.not_mem_nil
  | some =>
    rw [hfinalization.newFinal_of_some hlookup, List.mem_reverse] at hmem
    exact hlinks.tracked_of_lineage ((hlinks.index _ _).mp hlookup).1
      ((List.takeWhile_sublist _).subset hmem)

/-- Either nothing becomes final or the reported block does, as the last one. -/
theorem newFinal_cases (hlinks : before.Links) :
    newFinal = [] ∨ ∃ ref, before.hashToNode reported = some ref ∧
      (before.nodes ref).isFinal = false ∧ newFinal.getLast? = some ref := by
  cases hlookup : before.hashToNode reported with
  | none =>
    rw [hfinalization.newFinal_eq, hlookup]
    exact .inl rfl
  | some ref =>
    rw [hfinalization.newFinal_of_some hlookup, lineage_eq hlinks.descending, List.takeWhile_cons]
    cases hfinal : (before.nodes ref).isFinal with
    | true => exact .inl (by simp)
    | false => exact .inr ⟨ref, rfl, hfinal, by simp⟩

/-- A reported block that is tracked is final afterwards. -/
theorem isFinal_of_reported (hlinks : before.Links)
    (hlookup : before.hashToNode reported = some ref) :
    (before.nodes ref).isFinal = true ∨ ref ∈ newFinal := by
  cases hfinal : (before.nodes ref).isFinal with
  | true => exact .inl rfl
  | false =>
    right
    rw [hfinalization.newFinal_of_some hlookup, lineage_eq hlinks.descending, List.takeWhile_cons]
    simp [hfinal]

end Finalization

namespace FinalChain

variable {places : List ℕ}

section

variable (hchain : before.FinalChain added places) (hrecord : before.Records added)
include hchain hrecord

/-- The last final block is not pruned: the final head is one of its ancestors. -/
theorem last_not_gone (hprune : Pruning gone before after) :
    ∀ last ∈ places.getLast?, ¬ gone last := by
  intro last hlast hgone
  obtain ⟨_, head, hhead, _⟩ := hprune.gone_low last hgone
  have htrack := hrecord.heads.finalHead_tracked head hhead
  have hkept : ¬ gone head := by
    refine hprune.not_gone_of_height fun other hother ↦ ?_
    rw [Option.mem_unique hother hhead]
  exact hprune.not_gone_of_lineage hrecord.links hkept
    (hchain.ancestors last hlast head (hchain.finalHead_mem head hhead) htrack) hgone

theorem pruning (hprune : Pruning gone before after) :
    after.FinalChain added places where
  adopts := hchain.adopts.pruning hprune
  isFinal_iff := by
    intro ref htrack
    rw [(hprune.marks ref).2.2.2]
    exact hchain.isFinal_iff ref ((hprune.tracked ref).mp htrack).1
  closed := by
    intro ref above htrack hfinal hmem
    rw [(hprune.marks ref).2.2.2] at hfinal
    rw [(hprune.marks above).2.2.2]
    have hlinks := hprune.links hrecord.links
    have habove := (hprune.tracked above).mp (hlinks.tracked_of_lineage htrack hmem)
    have hbefore := ((hprune.tracked ref).mp htrack).1
    rw [hprune.mem_lineage_iff hrecord.links hlinks hbefore habove.2] at hmem
    exact hchain.closed ref above hbefore hfinal hmem
  lt_allocated := by
    rw [hprune.allocated]
    exact hchain.lt_allocated
  contiguous := hchain.contiguous
  last_tracked := fun last hlast ↦ (hprune.tracked last).mpr
    ⟨hchain.last_tracked last hlast, hchain.last_not_gone hrecord hprune last hlast⟩
  last_reported := hchain.last_reported
  ancestors := by
    intro last hlast place hplace htrack
    obtain ⟨hbefore, hkept⟩ := (hprune.tracked place).mp htrack
    rw [hprune.mem_lineage_iff hrecord.links (hprune.links hrecord.links)
      (hchain.last_tracked last hlast) hkept]
    exact hchain.ancestors last hlast place hplace hbefore
  finalHead_mem := by
    rw [hprune.finalHead]
    exact hchain.finalHead_mem

theorem insertion (hunknown : before.hashToNode block.hash = none)
    (hinsert : Insertion block content before after) :
    after.FinalChain (added ++ [(block, content)]) places := by
  have hlinks := hrecord.links
  have hafter := hinsert.links hlinks hunknown
  have hnew : before.allocated ∉ places := fun hmem ↦
    absurd (hchain.lt_allocated _ hmem) (lt_irrefl _)
  have holdTracked : ∀ ref, ref ∈ places → after.Tracked ref → before.Tracked ref := by
    intro ref hmem htrack
    refine ((hinsert.tracked hlinks ref).mp htrack).resolve_right ?_
    rintro rfl
    exact hnew hmem
  have hisFinal : ∀ ref, before.Tracked ref →
      (after.nodes ref).isFinal = (before.nodes ref).isFinal := fun ref htrack ↦
    (hinsert.old ref (hlinks.lt_allocated ref htrack).ne).2.2.2
  constructor
  case adopts => exact hchain.adopts.insertion hrecord hinsert (.refl after)
  case isFinal_iff =>
    intro ref htrack
    rcases (hinsert.tracked hlinks ref).mp htrack with hold | rfl
    · rw [hisFinal ref hold]
      exact hchain.isFinal_iff ref hold
    · rw [hinsert.new.2.2.2]
      exact ⟨fun hfalse ↦ absurd hfalse Bool.false_ne_true, fun hmem ↦ absurd hmem hnew⟩
  case closed =>
    intro ref above htrack hfinal hmem
    rcases (hinsert.tracked hlinks ref).mp htrack with hold | rfl
    · rw [hisFinal ref hold] at hfinal
      rw [hinsert.lineage_eq hlinks hafter hold] at hmem
      rw [hisFinal above (hlinks.tracked_of_lineage hold hmem)]
      exact hchain.closed ref above hold hfinal hmem
    · rw [hinsert.new.2.2.2] at hfinal
      exact absurd hfinal Bool.false_ne_true
  case lt_allocated =>
    rw [hinsert.allocated]
    exact fun place hmem ↦ (hchain.lt_allocated place hmem).trans (Nat.lt_succ_self _)
  case contiguous =>
    rw [List.map_append]
    exact hchain.contiguous.imp fun earlier later hparent ↦ hparent.append
  case last_tracked =>
    exact fun last hlast ↦ (hinsert.tracked hlinks last).mpr (.inl (hchain.last_tracked last hlast))
  case last_reported =>
    rw [List.map_append]
    exact fun last hlast ↦ (hchain.last_reported last hlast).append
  case ancestors =>
    intro last hlast place hplace htrack
    rw [hinsert.lineage_eq hlinks hafter (hchain.last_tracked last hlast)]
    exact hchain.ancestors last hlast place hplace (holdTracked place hplace htrack)
  case finalHead_mem =>
    rw [hinsert.finalHead]
    exact hchain.finalHead_mem

end

section Report

variable {reported : CryptoHash} {newFinal : List ℕ}
  {finalized raised : RecentBlocksTracker Content}

/-- The walk up from a newly reported block ends at the last final block, if there is one. -/
theorem lineage_eq_append_last (hchain : before.FinalChain added places)
    (hlinks : before.Links) (hsame : SameLinks before raised) (hrecord : raised.Records added)
    (hguarantees : IndexerGuarantees (added.map Prod.fst)) (htrack : before.Tracked ref)
    (hreported : ReportedFinal (added.map Prod.fst) ref)
    (hnotFinal : (before.nodes ref).isFinal = false) :
    ∃ stop?, lineage before.nodes.parent ref =
        (lineage before.nodes.parent ref).takeWhile (fun other ↦ !(before.nodes other).isFinal) ++
          lineage? before.nodes.parent stop? ∧
      (∀ stop ∈ stop?, (before.nodes stop).isFinal = true ∧ before.Tracked stop) ∧
      ∀ last ∈ places.getLast?, stop? = some last := by
  obtain ⟨stop?, hsplit, hstop⟩ := exists_lineage_eq_takeWhile_append hlinks.descending
    (fun other ↦ !(before.nodes other).isFinal) ref
  have hstopFinal : ∀ stop ∈ stop?, (before.nodes stop).isFinal = true ∧ before.Tracked stop := by
    intro stop hmem
    obtain ⟨hfinal, hlineage⟩ := hstop stop hmem
    exact ⟨by simpa using hfinal, hlinks.tracked_of_lineage htrack hlineage⟩
  refine ⟨stop?, hsplit, hstopFinal, fun last hlast ↦ ?_⟩
  have hlastMem := List.mem_of_getLast? hlast
  have hlastTracked := hchain.last_tracked last hlast
  have hlastFinal := (hchain.isFinal_iff last hlastTracked).mpr hlastMem
  have hadopts := hchain.adopts.of_same hsame
  have hlineage : ∀ first second, before.Tracked first → before.Tracked second →
      Descends (added.map Prod.fst) first second →
        second ∈ lineage before.nodes.parent first := by
    intro first second hfirst hsecond hdescends
    rw [← hsame.parent]
    exact hadopts.mem_lineage hrecord hguarantees.parents_first ((hsame.tracked first).mpr hfirst)
      ((hsame.tracked second).mpr hsecond) hdescends
  rcases hguarantees.one_final_chain ref last hreported (hchain.last_reported last hlast) with
    hdown | hup
  · have hmem := hlineage ref last htrack hlastTracked hdown
    rw [hsplit, List.mem_append] at hmem
    have hnotPassed : last ∉ (lineage before.nodes.parent ref).takeWhile
        fun other ↦ !(before.nodes other).isFinal := by
      intro hpassed
      have hskipped := List.mem_takeWhile_imp hpassed
      rw [hlastFinal] at hskipped
      exact Bool.false_ne_true hskipped
    have hrest := hmem.resolve_left hnotPassed
    cases hstopEq : stop? with
    | none =>
      rw [hstopEq] at hrest
      exact absurd hrest List.not_mem_nil
    | some stop =>
      rw [hstopEq] at hrest
      obtain ⟨hfinal, hstopTracked⟩ := hstopFinal stop hstopEq
      have hstopMem := (hchain.isFinal_iff stop hstopTracked).mp hfinal
      have habove := hchain.ancestors last hlast stop hstopMem hstopTracked
      have hle := le_of_mem_lineage hlinks.descending habove
      have hge := le_of_mem_lineage hlinks.descending hrest
      rw [le_antisymm hle hge]
  · have hmem := hlineage last ref hlastTracked htrack hup
    have hfinal := hchain.closed last ref hlastTracked hlastFinal hmem
    rw [hnotFinal] at hfinal
    exact absurd hfinal Bool.false_ne_true

/-- The places of the newly final nodes are linked as their blocks are. -/
theorem parentPlace_of_parent (hrecord : tracker.Records added) (htrack : tracker.Tracked ref)
    (hparent : tracker.nodes.parent ref = some above) :
    ParentPlace (added.map Prod.fst) ref above := by
  have habove := (hrecord.links.child_of_parent ref above htrack hparent).1
  obtain ⟨block, content, hadded⟩ := hrecord.exists_added htrack
  obtain ⟨parent, parentContent, hparentAdded⟩ := hrecord.exists_added habove
  refine ⟨block, parent, ?_, ?_, ?_⟩
  · rw [List.getElem?_map, hadded]
    rfl
  · rw [List.getElem?_map, hparentAdded]
    rfl
  · rw [← hrecord.parent ref above block content hadded hparent,
      (hrecord.node above parent parentContent hparentAdded).1]

/-- A report of a block that is unknown or already final. -/
theorem report_nothing (hchain : before.FinalChain added places) (hsame : SameLinks before raised)
    (hisFinal : ∀ ref, (raised.nodes ref).isFinal = true ↔ (before.nodes ref).isFinal = true)
    (hhead : ∀ head ∈ raised.finalHead, head ∈ places) : raised.FinalChain added places := by
  refine ⟨hchain.adopts.of_same hsame, ?_, ?_, ?_, hchain.contiguous, ?_, hchain.last_reported, ?_,
    hhead⟩
  · intro ref htrack
    rw [hisFinal]
    exact hchain.isFinal_iff ref ((hsame.tracked ref).mp htrack)
  · intro ref above htrack
    rw [hisFinal, hisFinal, hsame.parent]
    exact hchain.closed ref above ((hsame.tracked ref).mp htrack)
  · rw [hsame.allocated]
    exact hchain.lt_allocated
  · exact fun last hlast ↦ (hsame.tracked last).mpr (hchain.last_tracked last hlast)
  · intro last hlast place hplace htrack
    rw [hsame.parent]
    exact hchain.ancestors last hlast place hplace ((hsame.tracked place).mp htrack)

variable (hfinalization : Finalization reported before finalized newFinal)
  (hswitch : Switch finalized raised)
include hfinalization hswitch

theorem report_isFinal (ref : ℕ) :
    (raised.nodes ref).isFinal = true ↔ (before.nodes ref).isFinal = true ∨ ref ∈ newFinal := by
  rw [hswitch.isFinal]
  exact hfinalization.isFinal ref

variable (hchain : before.FinalChain added places)
include hchain

theorem report_isFinal_iff (ref : ℕ) (htrack : raised.Tracked ref) :
    (raised.nodes ref).isFinal = true ↔ ref ∈ places ++ newFinal := by
  rw [hswitch.links.tracked, hfinalization.links.tracked] at htrack
  rw [report_isFinal hfinalization hswitch, List.mem_append, hchain.isFinal_iff ref htrack]

variable (hlinks : before.Links)
include hlinks

theorem report_finalHead_mem : ∀ head ∈ raised.finalHead, head ∈ places ++ newFinal := by
  intro head hmem
  rw [hswitch.finalHead] at hmem
  rcases hfinalization.finalHead with ⟨hkept, -⟩ | ⟨hnew, -⟩
  · rw [hkept] at hmem
    exact List.mem_append_left _ (hchain.finalHead_mem head hmem)
  · rw [hnew] at hmem
    have htrack := ((hlinks.index _ _).mp hmem).1
    have hsame := hfinalization.links.trans hswitch.links
    rw [← report_isFinal_iff hfinalization hswitch hchain head ((hsame.tracked head).mpr htrack),
      report_isFinal hfinalization hswitch]
    exact hfinalization.isFinal_of_reported hlinks hmem

/-- A report of a tracked block that is not final yet. -/
theorem report_new (hrecord : raised.Records added)
    (hguarantees : IndexerGuarantees (added.map Prod.fst))
    (hlookup : before.hashToNode reported = some ref)
    (hreported : ReportedFinal (added.map Prod.fst) ref)
    (hnotFinal : (before.nodes ref).isFinal = false) (hlastNew : newFinal.getLast? = some ref) :
    raised.FinalChain added (places ++ newFinal) := by
  have hsame := hfinalization.links.trans hswitch.links
  have htrack := ((hlinks.index _ _).mp hlookup).1
  obtain ⟨stop?, hsplit, hstop, hstopLast⟩ := hchain.lineage_eq_append_last hlinks hsame hrecord
    hguarantees htrack hreported hnotFinal
  set passed := (lineage before.nodes.parent ref).takeWhile
    fun other ↦ !(before.nodes other).isFinal
  have hnewFinal : newFinal = passed.reverse := hfinalization.newFinal_of_some hlookup
  have hpassed : ∀ other ∈ newFinal, other ∈ lineage before.nodes.parent ref := by
    intro _ hother
    rw [hnewFinal, List.mem_reverse] at hother
    exact (List.takeWhile_sublist _).subset hother
  have hlast : (places ++ newFinal).getLast? = some ref := by
    rw [List.getLast?_append, hlastNew, Option.some_or]
  have hmemLast : ∀ last ∈ (places ++ newFinal).getLast?, last = ref := by
    intro _ hmem
    rw [hlast] at hmem
    exact (Option.some.inj hmem).symm
  -- The ancestors of the reported block are all final now.
  have hallFinal : ∀ above ∈ lineage before.nodes.parent ref,
      (raised.nodes above).isFinal = true := by
    intro above habove
    rw [report_isFinal hfinalization hswitch, hnewFinal, List.mem_reverse]
    rw [hsplit, List.mem_append] at habove
    refine habove.symm.imp (fun hrest ↦ ?_) id
    cases hstopEq : stop? with
    | none =>
      rw [hstopEq] at hrest
      exact absurd hrest List.not_mem_nil
    | some stop =>
      rw [hstopEq] at hrest
      obtain ⟨hfinal, hstopTracked⟩ := hstop stop hstopEq
      exact hchain.closed stop above hstopTracked hfinal hrest
  constructor
  case adopts => exact hchain.adopts.of_same hsame
  case isFinal_iff => exact report_isFinal_iff hfinalization hswitch hchain
  case finalHead_mem => exact report_finalHead_mem hfinalization hswitch hchain hlinks
  case closed =>
    intro other above hother hfinal hmem
    rw [hsame.parent] at hmem
    rcases (report_isFinal hfinalization hswitch other).mp hfinal with hold | hnew
    · rw [report_isFinal hfinalization hswitch]
      exact .inl (hchain.closed other above ((hsame.tracked other).mp hother) hold hmem)
    · exact hallFinal above (mem_lineage_trans hlinks.descending hmem (hpassed other hnew))
  case lt_allocated =>
    intro place hmem
    rw [hsame.allocated]
    rcases List.mem_append.mp hmem with hold | hnew
    · exact hchain.lt_allocated place hold
    · exact hlinks.lt_allocated place (hlinks.tracked_of_lineage htrack (hpassed place hnew))
  case contiguous =>
    have hlink : ∀ child above, child ∈ lineage before.nodes.parent ref →
        before.nodes.parent child = some above →
          ParentPlace (added.map Prod.fst) child above := by
      intro child _ hchild hparent
      have hchildTracked := hlinks.tracked_of_lineage htrack hchild
      rw [← hsame.parent] at hparent
      exact parentPlace_of_parent hrecord ((hsame.tracked child).mpr hchildTracked) hparent
    have hwhole := isChain_lineage hlinks.descending ref
    rw [hsplit, List.isChain_append] at hwhole
    obtain ⟨hwalk, -, hjoin⟩ := hwhole
    refine List.isChain_append.mpr ⟨hchain.contiguous, ?_, ?_⟩
    · rw [hnewFinal, List.isChain_reverse]
      refine hwalk.imp_of_mem_imp fun child above hchild _ hparent ↦ ?_
      exact hlink child above ((List.takeWhile_sublist _).subset hchild) hparent
    · intro last hlastPlaces first hfirst
      rw [hnewFinal, List.head?_reverse] at hfirst
      have hstopEq := hstopLast last hlastPlaces
      have hrest : last ∈ (lineage? before.nodes.parent stop?).head? := by
        rw [hstopEq, lineage?_some, lineage_eq hlinks.descending]
        rfl
      have hfirstMem := (List.takeWhile_sublist _).subset (List.mem_of_getLast? hfirst)
      exact hlink first last hfirstMem (hjoin first hfirst last hrest)
  case last_tracked =>
    intro last hmem
    rw [hmemLast last hmem]
    exact (hsame.tracked ref).mpr htrack
  case last_reported =>
    intro last hmem
    rw [hmemLast last hmem]
    exact hreported
  case ancestors =>
    intro last hmem place hplace hplaceTracked
    rw [hmemLast last hmem, hsame.parent]
    rw [hsame.tracked] at hplaceTracked
    rcases List.mem_append.mp hplace with hold | hnew
    · obtain ⟨previous, hprevious⟩ : ∃ previous, places.getLast? = some previous :=
        ⟨_, List.getLast?_eq_some_getLast (List.ne_nil_of_mem hold)⟩
      have habove := hchain.ancestors previous hprevious place hold hplaceTracked
      have hpreviousMem : previous ∈ lineage before.nodes.parent ref := by
        rw [hsplit, hstopLast previous hprevious, List.mem_append]
        exact .inr (mem_lineage_self previous)
      exact mem_lineage_trans hlinks.descending habove hpreviousMem
    · exact hpassed place hnew

theorem report (hrecord : raised.Records added)
    (hreporter : ∃ entry ∈ added, entry.1.lastFinalBlock = reported)
    (hguarantees : IndexerGuarantees (added.map Prod.fst)) :
    raised.FinalChain added (places ++ newFinal) := by
  have hsame := hfinalization.links.trans hswitch.links
  rcases hfinalization.newFinal_cases hlinks with rfl | ⟨ref, hlookup, hnotFinal, hlastNew⟩
  · have hhead := report_finalHead_mem hfinalization hswitch hchain hlinks
    rw [List.append_nil] at hhead ⊢
    refine hchain.report_nothing hsame (fun ref ↦ ?_) hhead
    simp [report_isFinal hfinalization hswitch]
  · obtain ⟨htrack, hhash⟩ := (hlinks.index _ _).mp hlookup
    obtain ⟨block, content, hadded⟩ := hrecord.exists_added ((hsame.tracked ref).mpr htrack)
    obtain ⟨entry, hentry, hreports⟩ := hreporter
    refine report_new hfinalization hswitch hchain hlinks hrecord hguarantees hlookup ?_ hnotFinal
      hlastNew
    refine ⟨block, by rw [List.getElem?_map, hadded]; rfl, entry.1, List.mem_map_of_mem hentry, ?_⟩
    rw [hreports, ← hhash, ← hsame.hash, (hrecord.node ref block content hadded).1]

omit hchain in
/-- A report of a tracked block puts the block and its tracked ancestors on the final chain. -/
theorem report_mem (hafter : raised.FinalChain added places) (hrecord : raised.Records added)
    (hfirst : ∀ child above, ParentPlace (added.map Prod.fst) child above → above < child)
    (hlookup : before.hashToNode reported = some ref) (habove : raised.Tracked above)
    (hdescends : Descends (added.map Prod.fst) ref above) : above ∈ places := by
  have hsame := hfinalization.links.trans hswitch.links
  have htrack := (hsame.tracked ref).mpr ((hlinks.index _ _).mp hlookup).1
  have hfinal := (report_isFinal hfinalization hswitch ref).mpr
    (hfinalization.isFinal_of_reported hlinks hlookup)
  have hlineage := hafter.adopts.mem_lineage hrecord hfirst htrack habove hdescends
  exact (hafter.isFinal_iff above habove).mp (hafter.closed ref above htrack hfinal hlineage)

end Report

end FinalChain

/-! ### What is kept -/

/-- Every block that was added is tracked until it is below the height to keep. -/
def Keeps (tracker : RecentBlocksTracker Content) (added : List (BlockViewLite × Content)) : Prop :=
  ∀ place block content, added[place]? = some (block, content) →
    tracker.Tracked place ∨ ∃ minimum ∈ tracker.minimumHeightToKeep, block.height < minimum

theorem mem_minimumHeightToKeep {minimum} : minimum ∈ tracker.minimumHeightToKeep ↔
    ∃ head ∈ tracker.finalHead, min tracker.windowStart (tracker.nodes head).height = minimum :=
  Option.map_eq_some_iff

theorem Pruning.windowStart (hprune : Pruning gone before after) :
    after.windowStart = before.windowStart := by
  rw [RecentBlocksTracker.windowStart, hprune.windowSize, hprune.maximumHeightAvailable]
  rfl

theorem Pruning.minimumHeightToKeep (hprune : Pruning gone before after) :
    after.minimumHeightToKeep = before.minimumHeightToKeep := by
  rw [RecentBlocksTracker.minimumHeightToKeep, hprune.finalHead, hprune.windowStart]
  exact congrArg (before.finalHead.map ·)
    (funext fun head ↦ congrArg (min before.windowStart) (hprune.marks head).2.1)

theorem Keeps.pruning (hkeeps : before.Keeps added) (hrecord : before.Records added)
    (hprune : Pruning gone before after) : after.Keeps added := by
  intro place block content hadded
  rw [hprune.minimumHeightToKeep]
  rcases hkeeps place block content hadded with htrack | hlow
  · by_cases hgone : gone place
    · obtain ⟨hwindow, head, hhead, hlow⟩ := hprune.gone_low place hgone
      rw [(hrecord.node place block content hadded).2] at hwindow hlow
      exact .inr ⟨_, mem_minimumHeightToKeep.mpr ⟨head, hhead, rfl⟩, lt_min hwindow hlow⟩
    · exact .inl ((hprune.tracked place).mpr ⟨htrack, hgone⟩)
  · exact .inr hlow

/-- The height to keep never falls. -/
theorem Keeps.rise (hkeeps : before.Keeps added)
    (htracked : ∀ ref, before.Tracked ref → after.Tracked ref)
    (hwindow : before.windowStart ≤ after.windowStart)
    (hhead : ∀ head ∈ before.finalHead, ∃ newer ∈ after.finalHead,
      (before.nodes head).height ≤ (after.nodes newer).height) : after.Keeps added := by
  intro place block content hadded
  rcases hkeeps place block content hadded with htrack | ⟨minimum, hminimum, hlow⟩
  · exact .inl (htracked place htrack)
  · obtain ⟨head, hmem, rfl⟩ := mem_minimumHeightToKeep.mp hminimum
    obtain ⟨newer, hnewer, hle⟩ := hhead head hmem
    exact .inr ⟨_, mem_minimumHeightToKeep.mpr ⟨newer, hnewer, rfl⟩,
      hlow.trans_le (min_le_min hwindow hle)⟩

theorem windowStart_withMaximum (tracker : RecentBlocksTracker Content) (height : ℕ) :
    tracker.windowStart ≤ { tracker with
      maximumHeightAvailable := max tracker.maximumHeightAvailable height }.windowStart := by
  have hle := le_max_left tracker.maximumHeightAvailable height
  unfold windowStart
  dsimp only
  omega

section Raised

variable {newFinal : List ℕ} {inserted finalized raised : RecentBlocksTracker Content}
  (hinsert : Insertion block content before inserted)
  (hfinalization : Finalization block.lastFinalBlock inserted finalized newFinal)
  (hswitch : Switch finalized raised)
include hinsert hfinalization hswitch

theorem windowStart_raised
    (hmaximum : raised.maximumHeightAvailable = max before.maximumHeightAvailable block.height) :
    before.windowStart ≤ raised.windowStart := by
  have hle := le_max_left before.maximumHeightAvailable block.height
  have hsize : raised.windowSize = before.windowSize := by
    rw [hswitch.windowSize, hfinalization.windowSize, hinsert.windowSize]
  rw [windowStart, windowStart, hsize, hmaximum]
  omega

variable (hrecord : before.Records added)
include hrecord

theorem finalHead_raised : ∀ head ∈ before.finalHead, ∃ newer ∈ raised.finalHead,
    (before.nodes head).height ≤ (raised.nodes newer).height := by
  intro head hhead
  have hsame := hfinalization.links.trans hswitch.links
  have hlt := hrecord.links.lt_allocated head (hrecord.heads.finalHead_tracked head hhead)
  have hinserted : head ∈ inserted.finalHead := by rwa [hinsert.finalHead]
  rw [← (hinsert.old head hlt.ne).2.1, hswitch.finalHead]
  rcases hfinalization.finalHead with ⟨hkept, -⟩ | ⟨hnew, newer, hlookup, hhigher⟩
  · exact ⟨head, by rwa [hkept], (hsame.height head).ge⟩
  · refine ⟨newer, by rwa [hnew], ?_⟩
    rw [hsame.height]
    exact (hhigher head hinserted).le

theorem tracked_raised (ref : ℕ) :
    raised.Tracked ref ↔ before.Tracked ref ∨ ref = added.length := by
  rw [(hfinalization.links.trans hswitch.links).tracked, hinsert.tracked hrecord.links,
    hrecord.allocated]

theorem Keeps.report (hkeeps : before.Keeps added)
    (hmaximum : raised.maximumHeightAvailable = max before.maximumHeightAvailable block.height) :
    raised.Keeps (added ++ [(block, content)]) := by
  have htracked := tracked_raised hinsert hfinalization hswitch hrecord
  have hold := hkeeps.rise (fun ref htrack ↦ (htracked ref).mpr (.inl htrack))
    (windowStart_raised hinsert hfinalization hswitch hmaximum)
    (finalHead_raised hinsert hfinalization hswitch hrecord)
  intro place other text hadded
  rcases added_cases hadded with ⟨-, hadded⟩ | ⟨hplace, -⟩
  · exact hold place other text hadded
  · exact .inl ((htracked place).mpr (.inr hplace))

end Raised

end RecentBlocksTracker

/-! ### The stream -/

namespace TrackerHistory

variable {Content : Type} {history : TrackerHistory Content} {places : List ℕ}

/-- The entry of the stream is the height and the content of the block in this place. -/
def EntryOf (added : List (BlockViewLite × Content)) (place : ℕ) (entry : ℕ × Content) : Prop :=
  ∃ block, added[place]? = some (block, entry.2) ∧ entry.1 = block.height

theorem EntryOf.append {added later : List (BlockViewLite × Content)} {place : ℕ}
    {entry : ℕ × Content} (hentry : EntryOf added place entry) :
    EntryOf (added ++ later) place entry := by
  obtain ⟨block, hadded, hheight⟩ := hentry
  have hlt := (List.getElem?_eq_some_iff.mp hadded).1
  exact ⟨block, by rw [List.getElem?_append_left hlt, hadded], hheight⟩

/-- The entries that are returned for tracked nodes. -/
theorem entries_of_tracked {tracker : RecentBlocksTracker Content}
    {added : List (BlockViewLite × Content)} (hrecord : tracker.Records added) {refs : List ℕ}
    (htrack : ∀ ref ∈ refs, tracker.Tracked ref) :
    List.Forall₂ (EntryOf added) refs (refs.filterMap fun ref ↦
      (tracker.nodeToContent (tracker.nodes ref).hash).map fun content ↦
        ((tracker.nodes ref).height, content)) := by
  induction refs with
  | nil => exact .nil
  | cons ref _ ih =>
    rw [List.forall_mem_cons] at htrack
    obtain ⟨block, content, hadded⟩ := hrecord.exists_added htrack.1
    obtain ⟨hhash, hheight⟩ := hrecord.node ref block content hadded
    have hcontent := hrecord.content ref block content htrack.1 hadded
    rw [List.filterMap_cons, hhash, hcontent]
    exact .cons ⟨block, hadded, hheight⟩ (ih htrack.2)

/-- The final chain of a history and the stream that was returned for it. -/
structure Streams (history : TrackerHistory Content) (places : List ℕ) : Prop where
  chain : history.tracker.FinalChain history.added places
  entries : List.Forall₂ (EntryOf history.added) places history.stream

/-- What is known of every history. -/
structure Exact (history : TrackerHistory Content) : Prop where
  records : history.tracker.Records history.added
  keeps : history.tracker.Keeps history.added
  streams : IndexerGuarantees (history.added.map Prod.fst) → ∃ places, history.Streams places

theorem start_exact (windowSize : ℕ+) : (start windowSize : TrackerHistory Content).Exact := by
  have huntracked : ∀ ref, ¬ (new windowSize :
      RecentBlocksTracker Content).Tracked ref := by
    rintro _ ⟨_, hroot, _⟩
    exact absurd hroot List.not_mem_nil
  refine ⟨.new windowSize, ?_, fun _ ↦ ⟨[], ⟨?_, .nil⟩⟩⟩
  · exact fun _ _ _ hadded ↦ absurd hadded (by simp [start])
  · constructor
    case adopts => exact fun ref _ _ _ htrack ↦ absurd htrack (huntracked ref)
    case isFinal_iff => exact fun ref htrack ↦ absurd htrack (huntracked ref)
    case closed => exact fun ref _ htrack ↦ absurd htrack (huntracked ref)
    case contiguous => exact .nil
    all_goals simp [start, new]

/-- The place of the block that the next block reports as final, as long as that is tracked. A block
may report itself. -/
def reportedPlace (history : TrackerHistory Content) (block : BlockViewLite) : Option ℕ :=
  if block.lastFinalBlock = block.hash then some history.added.length
  else history.tracker.hashToNode block.lastFinalBlock

/-- The call reports the block in this place as final: it adds a block that is not tracked yet, and
the place is that of the block it names or of a tracked ancestor of it. -/
def Reports (history : TrackerHistory Content) (call : TrackerCall Content) (place : ℕ) : Prop :=
  ∃ block content, call = .addBlock block content ∧
    history.tracker.hashToNode block.hash = none ∧
    (history.tracker.Tracked place ∨ place = history.added.length) ∧
    ∃ ref ∈ history.reportedPlace block,
      Descends ((history.added ++ [(block, content)]).map Prod.fst) ref place

/-- A call continues the stream with the blocks in the given places. -/
structure Continues (history : TrackerHistory Content) (places : List ℕ)
    (call : TrackerCall Content) (next : TrackerHistory Content) (more : List ℕ) : Prop where
  records : next.tracker.Records next.added
  keeps : next.tracker.Keeps next.added
  guarantees : IndexerGuarantees (next.added.map Prod.fst) →
    IndexerGuarantees (history.added.map Prod.fst)
  streams : IndexerGuarantees (next.added.map Prod.fst) → history.Streams places →
    next.Streams (places ++ more) ∧ ∀ place, history.Reports call place → place ∈ places ++ more

theorem addBlock_continues (hexact : history.Exact) {block : BlockViewLite} (content : Content)
    (hlookup : history.tracker.hashToNode block.hash = none) :
    ∃ next more, history.step (.addBlock block content) = .ok next ∧
      ∀ places, history.Continues places (.addBlock block content) next more := by
  have hrecord := hexact.records
  obtain ⟨_, _, raised, _, newFinal, _, hadd, hinsert, hfinalization,
    hswitch, hmaximum, hheads, hprune⟩ :=
      addBlock_eq_ok hrecord.links hrecord.heads content hlookup
  have hlinks := hinsert.links hrecord.links hlookup
  have hsame := hfinalization.links.trans hswitch.links
  have hraised := hrecord.insertion hlookup hinsert hsame hheads
  have hkeeps := hexact.keeps.report hinsert hfinalization hswitch hrecord hmaximum
  refine ⟨_, newFinal, by rw [step, hadd], fun places ↦ ⟨hraised.pruning hprune,
    hkeeps.pruning hraised hprune, ?_, fun hguarantees hstreams ↦ ?_⟩⟩
  · intro hguarantees
    rw [List.map_append] at hguarantees
    exact hguarantees.of_append
  have hreport := RecentBlocksTracker.FinalChain.report hfinalization hswitch
    (hstreams.chain.insertion hrecord hlookup hinsert) hlinks hraised
    ⟨(block, content), List.mem_append_right _ (List.mem_singleton_self _), rfl⟩ hguarantees
  refine ⟨⟨hreport.pruning hraised hprune, ?_⟩, ?_⟩
  · refine List.rel_append (hstreams.entries.imp fun _ _ hentry ↦ hentry.append) ?_
    have htrack : ∀ ref ∈ newFinal, raised.Tracked ref := fun ref hmem ↦
      (hsame.tracked ref).mpr (hfinalization.tracked_of_mem hlinks hmem)
    have hnew := entries_of_tracked hraised htrack
    simpa only [hswitch.links.nodeToContent, hswitch.links.hash, hswitch.links.height] using hnew
  · rintro place ⟨_, _, hcall, -, hplace, ref, href, hdescends⟩
    obtain ⟨rfl, rfl⟩ := TrackerCall.addBlock.inj hcall
    have htrack := (tracked_raised hinsert hfinalization hswitch hrecord place).mpr hplace
    refine RecentBlocksTracker.FinalChain.report_mem hfinalization hswitch hlinks hreport hraised
      hguarantees.parents_first ?_ htrack hdescends
    rwa [hinsert.hashToNode, Function.update_apply, hrecord.allocated]

theorem step_continues (hexact : history.Exact) (call : TrackerCall Content) :
    ∃ next more, history.step call = .ok next ∧
      ∀ places, history.Continues places call next more := by
  have hrecord := hexact.records
  cases call with
  | addBlock block content =>
    cases hlookup : history.tracker.hashToNode block.hash with
    | some =>
      refine ⟨history, [], by rw [step, addBlock_of_known hlookup], fun places ↦
        ⟨hrecord, hexact.keeps, id, fun _ hstreams ↦ ⟨by rwa [List.append_nil], ?_⟩⟩⟩
      rintro _ ⟨_, _, hcall, hunknown, -⟩
      obtain ⟨rfl, rfl⟩ := TrackerCall.addBlock.inj hcall
      cases hunknown.symm.trans hlookup
    | none => exact addBlock_continues hexact content hlookup
  | notifyMaximumHeightAvailable height =>
    obtain ⟨after, _, hnotify, hprune⟩ :=
      notifyMaximumHeightAvailable_eq_ok hrecord.links height
    have hraised := hrecord.withMaximum (max history.tracker.maximumHeightAvailable height)
    have hkeeps : RecentBlocksTracker.Keeps { history.tracker with
        maximumHeightAvailable := max history.tracker.maximumHeightAvailable height }
        history.added :=
      hexact.keeps.rise (fun _ htrack ↦ htrack) (windowStart_withMaximum _ height)
        fun head hhead ↦ ⟨head, hhead, le_rfl⟩
    refine ⟨{ history with tracker := after }, [], by rw [step, hnotify]; rfl, fun places ↦
      ⟨hraised.pruning hprune, hkeeps.pruning hraised hprune, id, fun _ hstreams ↦ ⟨?_, ?_⟩⟩⟩
    · obtain ⟨hchain, hentries⟩ := hstreams
      rw [List.append_nil]
      refine ⟨.pruning ?_ hraised hprune, hentries⟩
      exact ⟨hchain.adopts, hchain.isFinal_iff, hchain.closed, hchain.lt_allocated,
        hchain.contiguous, hchain.last_tracked, hchain.last_reported, hchain.ancestors,
        hchain.finalHead_mem⟩
    · rintro _ ⟨_, _, hcall, -⟩
      cases hcall

theorem Continues.exact {call next more}
    (hcontinues : ∀ places, history.Continues places call next more) (hexact : history.Exact) :
    next.Exact where
  records := (hcontinues []).records
  keeps := (hcontinues []).keeps
  streams := by
    intro hguarantees
    obtain ⟨places, hstreams⟩ := hexact.streams ((hcontinues []).guarantees hguarantees)
    exact ⟨_, ((hcontinues places).streams hguarantees hstreams).1⟩

theorem step_exact (hexact : history.Exact) (call : TrackerCall Content) :
    ∃ next, history.step call = .ok next ∧ next.Exact := by
  obtain ⟨next, _, hstep, hcontinues⟩ := step_continues hexact call
  exact ⟨next, hstep, Continues.exact hcontinues hexact⟩

/-- What was reported final in the course of the calls is in one of the given places. -/
def HasReported (windowSize : ℕ+) (calls : List (TrackerCall Content)) (places : List ℕ) : Prop :=
  ∀ earlier call before, earlier ++ [call] <+: calls → run windowSize earlier = .ok before →
    ∀ place, before.Reports call place → place ∈ places

/-- A run keeps the stream and what was reported. -/
theorem run_exact (windowSize : ℕ+) (calls : List (TrackerCall Content)) :
    ∃ last, run windowSize calls = .ok last ∧ last.Exact ∧
      (IndexerGuarantees (last.added.map Prod.fst) →
        ∃ places, last.Streams places ∧ HasReported windowSize calls places) := by
  induction calls using List.reverseRecOn with
  | nil =>
    have hexact : (start windowSize : TrackerHistory Content).Exact := start_exact windowSize
    refine ⟨_, rfl, hexact, fun hguarantees ↦ ?_⟩
    obtain ⟨places, hstreams⟩ := hexact.streams hguarantees
    refine ⟨places, hstreams, fun earlier _ _ hprefix ↦ ?_⟩
    exact absurd hprefix.length_le (by simp)
  | append_singleton calls call ih =>
    obtain ⟨history, hrun, hexact, hstreams⟩ := ih
    obtain ⟨next, more, hstep, hcontinues⟩ := step_continues hexact call
    refine ⟨next, foldlM_concat hrun hstep, Continues.exact hcontinues hexact, fun hguarantees ↦ ?_⟩
    obtain ⟨places, hplaces, hreported⟩ := hstreams ((hcontinues []).guarantees hguarantees)
    obtain ⟨hnext, hreports⟩ := (hcontinues places).streams hguarantees hplaces
    refine ⟨places ++ more, hnext, fun earlier other before hprefix hbefore place hplace ↦ ?_⟩
    rcases List.prefix_concat_iff.mp hprefix with hwhole | hprefix
    · obtain ⟨rfl, hcall⟩ := List.append_inj' hwhole rfl
      obtain rfl := List.singleton_inj.mp hcall
      obtain rfl := ok.inj (hrun.symm.trans hbefore)
      exact hreports place hplace
    · exact List.mem_append_left _ (hreported earlier other before hprefix hbefore place hplace)

/-- The blocks that are added in the course of the given calls, oldest first. -/
def addedBlocks (windowSize : ℕ+) (calls : List (TrackerCall Content)) : List BlockViewLite :=
  match run windowSize calls with
  | .ok history => history.added.map Prod.fst
  | _ => []

end TrackerHistory

/-- The stream after the given calls is the chain of the blocks in the given places. -/
structure ExactStream {Content : Type} (windowSize : ℕ+) (calls : List (TrackerCall Content))
    (history : TrackerHistory Content) (places : List ℕ) : Prop where
  entries : List.Forall₂ (TrackerHistory.EntryOf history.added) places history.stream
  contiguous : places.IsChain fun earlier later ↦
    ParentPlace (history.added.map Prod.fst) later earlier
  ascending : places.Pairwise (· < ·)
  keeps : history.tracker.Keeps history.added
  final_iff_mem : ∀ ref, history.tracker.Tracked ref →
    ((history.tracker.nodes ref).isFinal = true ↔ ref ∈ places)
  reported_mem : TrackerHistory.HasReported windowSize calls places
  last_reported : ∀ last ∈ places.getLast?, ReportedFinal (history.added.map Prod.fst) last
  heights : HeightsAscend (history.added.map Prod.fst) →
    (history.stream.map Prod.fst).Pairwise (· < ·)

theorem isChain_of_forall₂ {First Second : Type} {related : First → Second → Prop}
    {first : First → First → Prop} {second : Second → Second → Prop} {firsts seconds}
    (hstep : ∀ left right image image', related left image → related right image' →
      first left right → second image image') (hrelated : List.Forall₂ related firsts seconds)
    (hchain : firsts.IsChain first) : seconds.IsChain second := by
  induction hrelated with
  | nil => exact .nil
  | cons hhead htail ih =>
    cases htail with
    | nil => exact .singleton _
    | cons hnext =>
      rw [List.isChain_cons_cons] at hchain ⊢
      exact ⟨hstep _ _ _ _ hhead hnext hchain.1, ih hchain.2⟩

/-- When blocks are higher than their parents, so are the entries of the stream. -/
theorem TrackerHistory.Streams.heights {Content : Type} {history : TrackerHistory Content}
    {places : List ℕ} (hstreams : history.Streams places)
    (hheights : HeightsAscend (history.added.map Prod.fst)) :
    (history.stream.map Prod.fst).Pairwise (· < ·) := by
  rw [← List.isChain_iff_pairwise, List.isChain_map]
  refine isChain_of_forall₂ ?_ hstreams.entries hstreams.chain.contiguous
  rintro _ _ _ _ ⟨firstBlock, hfirst, hfirstHeight⟩
    ⟨secondBlock, hsecond, hsecondHeight⟩ ⟨block, parent, hblock, hparent, hprev⟩
  rw [List.getElem?_map, hsecond] at hblock
  rw [List.getElem?_map, hfirst] at hparent
  obtain rfl : secondBlock = block := Option.some.inj hblock
  obtain rfl : firstBlock = parent := Option.some.inj hparent
  rw [hfirstHeight, hsecondHeight]
  exact hheights _ (List.mem_map_of_mem (List.mem_of_getElem? hsecond)) _
    (List.mem_map_of_mem (List.mem_of_getElem? hfirst)) hprev

/-- The stream of final blocks is exact whenever the indexer keeps its guarantees. -/
theorem finalizedStream_exact {Content : Type} (windowSize : ℕ+)
    (calls : List (TrackerCall Content))
    (hguarantees : IndexerGuarantees (addedBlocks windowSize calls)) :
    ∃ history places, TrackerHistory.run windowSize calls = .ok history ∧
      ExactStream windowSize calls history places := by
  obtain ⟨history, hrun, hexact, hstreams⟩ := run_exact windowSize calls
  have hadded : addedBlocks windowSize calls = history.added.map Prod.fst := by
    unfold addedBlocks
    rw [hrun]
  rw [hadded] at hguarantees
  obtain ⟨places, hplaces, hreported⟩ := hstreams hguarantees
  refine ⟨history, places, hrun, hplaces.entries, hplaces.chain.contiguous, ?_, hexact.keeps,
    hplaces.chain.isFinal_iff, hreported, hplaces.chain.last_reported, hplaces.heights⟩
  rw [← List.isChain_iff_pairwise]
  exact hplaces.chain.contiguous.imp fun earlier later hparent ↦
    hguarantees.parents_first later earlier hparent

/-- The calls that add the blocks, with their hashes as contents. -/
def addingCalls (blocks : List BlockViewLite) : List (TrackerCall CryptoHash) :=
  blocks.map fun block ↦ .addBlock block block.hash

/-- Of three blocks of one chain, each of which reports its parent as final, the first two come
out. -/
theorem finalizedStream_exact_chain :
    let blocks : List BlockViewLite := [⟨1, 10, 0, 0⟩, ⟨2, 11, 1, 1⟩, ⟨3, 12, 2, 2⟩]
    IndexerGuarantees blocks ∧ ∃ history places,
      TrackerHistory.run 200 (addingCalls blocks) = .ok history ∧
        history.stream = [(10, 1), (11, 2)] ∧
        ExactStream 200 (addingCalls blocks) history places := by
  intro blocks
  have hadded : addedBlocks 200 (addingCalls blocks) = blocks := by decide +kernel
  have hguarantees : IndexerGuarantees blocks := .of_parents (by decide) (by decide)
  obtain ⟨history, places, hrun, hexact⟩ :=
    finalizedStream_exact 200 (addingCalls blocks) (by rw [hadded]; exact hguarantees)
  have hstream : stream <$> TrackerHistory.run 200 (addingCalls blocks) =
      .ok [(10, 1), (11, 2)] := by decide +kernel
  rw [hrun] at hstream
  exact ⟨hguarantees, history, places, hrun, ok.inj hstream, hexact⟩

/-- A block that is lower than its parent comes out after it. -/
theorem finalizedStream_descends :
    let blocks : List BlockViewLite := [⟨1, 11, 0, 0⟩, ⟨2, 10, 1, 1⟩, ⟨3, 12, 2, 2⟩]
    IndexerGuarantees blocks ∧ addedBlocks 200 (addingCalls blocks) = blocks ∧
      stream <$> TrackerHistory.run 200 (addingCalls blocks) = .ok [(11, 1), (10, 2)] := by
  intro blocks
  exact ⟨.of_parents (by decide) (by decide), by decide +kernel, by decide +kernel⟩

end NearMpc.Node
