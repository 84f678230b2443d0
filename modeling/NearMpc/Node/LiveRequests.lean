import NearMpc.Node.RequestHistories

/-!
# Live requests stay in the queue

A request leaves the queue when its response is in a final block, after ten attempts of this node,
or when the block it was first seen in is dropped: that block is older than the window, or it is not
final while a block at least as high is. A dropped block stays dropped, because the window only
moves up and what becomes final later is higher than the final head (`Advance`). So a request whose
first block is not dropped now has never been removed for its block (`run_accounts`).

A later block with the same request does not protect it: the queue keeps the first block only, and
drops the request with it even if the later block is final (`finalRequest_dropped`).
-/

set_option autoImplicit false

namespace NearMpc.Node

open Library Library.Outcome RecentBlocksTracker PendingRequests RequestHistory

theorem HeightsAscend.of_append {blocks later} (hheights : HeightsAscend (blocks ++ later)) :
    HeightsAscend blocks :=
  fun block hblock parent hparent ↦ hheights block (List.mem_append_left _ hblock) parent
    (List.mem_append_left _ hparent)

variable {block : BlockViewLite}

namespace RecentBlocksTracker

variable {Content : Type} {tracker before after : RecentBlocksTracker Content}
  {added : List (BlockViewLite × Content)} {ref : ℕ}

/-! ### How the tracker advances -/

/-- A block in the window that may still be on the final chain is kept, and what becomes final is
higher than what was final. -/
structure Advance (before after : RecentBlocksTracker Content) : Prop where
  windowStart : before.windowStart ≤ after.windowStart
  height : ∀ ref < before.allocated, (after.nodes ref).height = (before.nodes ref).height
  finalHead : ∀ head ∈ before.finalHead, ∃ newer ∈ after.finalHead,
    (before.nodes head).height ≤ (after.nodes newer).height
  isFinal : ∀ ref < before.allocated, (after.nodes ref).isFinal = true →
    (before.nodes ref).isFinal = true ∨
      ∀ head ∈ before.finalHead, (before.nodes head).height < (before.nodes ref).height
  tracked : ∀ ref, before.Tracked ref → after.Tracked ref ∨
    (before.nodes ref).height < after.windowStart

/-- The block is too old, or it is not final while one that is at least as high is. -/
def Dropped (tracker : RecentBlocksTracker Content) (ref : ℕ) : Prop :=
  (tracker.nodes ref).height < tracker.windowStart ∨
    (tracker.nodes ref).isFinal = false ∧
      ∃ head ∈ tracker.finalHead, (tracker.nodes ref).height ≤ (tracker.nodes head).height

theorem Advance.dropped (hadvance : Advance before after) (hallocated : ref < before.allocated)
    (hdropped : before.Dropped ref) : after.Dropped ref := by
  have hheight := hadvance.height ref hallocated
  rcases hdropped with hold | ⟨hnotFinal, head, hhead, hlow⟩
  · left
    rw [hheight]
    exact hold.trans_le hadvance.windowStart
  · right
    obtain ⟨newer, hnewer, hhigher⟩ := hadvance.finalHead head hhead
    refine ⟨?_, newer, hnewer, by rw [hheight]; exact hlow.trans hhigher⟩
    rw [← Bool.not_eq_true]
    intro hfinal
    rcases hadvance.isFinal ref hallocated hfinal with hbefore | habove
    · exact absurd hbefore (by simp [hnotFinal])
    · exact absurd (habove head hhead) (not_lt.mpr hlow)

theorem Advance.kept (hadvance : Advance before after) (hallocated : ref < before.allocated)
    (hkept : before.Tracked ref ∨ (before.nodes ref).height < before.windowStart) :
    after.Tracked ref ∨ (after.nodes ref).height < after.windowStart := by
  rw [hadvance.height ref hallocated]
  rcases hkept with htrack | hold
  · exact hadvance.tracked ref htrack
  · exact .inr (hold.trans_le hadvance.windowStart)

/-- A block that is discarded is dropped. -/
theorem dropped_of_isDiscarded (hlinks : tracker.Links)
    (hkept : tracker.Tracked ref ∨ (tracker.nodes ref).height < tracker.windowStart)
    (hdiscarded : isDiscarded
      (tracker.classifyBlock (tracker.nodes ref).hash (tracker.nodes ref).height) = true) :
    tracker.Dropped ref := by
  by_cases hold : (tracker.nodes ref).height < tracker.windowStart
  · exact .inl hold
  · have hlookup := (hlinks.index _ ref).mpr ⟨hkept.resolve_right hold, rfl⟩
    unfold classifyBlock at hdiscarded
    rw [if_neg hold, hlookup] at hdiscarded
    dsimp only at hdiscarded
    split_ifs at hdiscarded with hfinal hlow hcanonical
    · exact absurd hdiscarded Bool.false_ne_true
    · refine .inr ⟨by simpa using hfinal, ?_⟩
      obtain ⟨head, hhead, hle⟩ := Option.any_eq_true _ _ |>.mp hlow
      exact ⟨head, hhead, by simpa using hle⟩
    · exact absurd hdiscarded Bool.false_ne_true
    · exact absurd hdiscarded Bool.false_ne_true

/-- Along the final chain the heights ascend. -/
theorem FinalChain.ascending {places} (hchain : tracker.FinalChain added places)
    (hrecord : tracker.Records added) (hheights : HeightsAscend (added.map Prod.fst)) :
    places.Pairwise fun earlier later ↦
      (tracker.nodes earlier).height < (tracker.nodes later).height := by
  have : IsTrans ℕ fun earlier later ↦
      (tracker.nodes earlier).height < (tracker.nodes later).height := ⟨fun _ _ _ ↦ lt_trans⟩
  rw [← List.isChain_iff_pairwise]
  refine hchain.contiguous.imp fun earlier later hparent ↦ ?_
  obtain ⟨block, parent, hblock, hparentBlock, hprev⟩ := hparent
  have hnode : ∀ {place : ℕ} {other : BlockViewLite}, (added.map Prod.fst)[place]? = some other →
      (tracker.nodes place).height = other.height := by
    intro place _ hplace
    obtain ⟨⟨_, content⟩, hadded, rfl⟩ :=
      Option.map_eq_some_iff.mp ((List.getElem?_map).symm.trans hplace)
    exact (hrecord.node place _ content hadded).2
  rw [hnode hblock, hnode hparentBlock]
  exact hheights block (List.mem_of_getElem? hblock) parent (List.mem_of_getElem? hparentBlock)
    hprev

theorem Advance.trans {middle} (hfirst : Advance before middle) (hsecond : Advance middle after)
    (hlinks : before.Links) (hallocated : before.allocated ≤ middle.allocated) :
    Advance before after where
  windowStart := hfirst.windowStart.trans hsecond.windowStart
  height := by
    intro ref hlt
    rw [hsecond.height ref (hlt.trans_le hallocated), hfirst.height ref hlt]
  finalHead := by
    intro head hhead
    obtain ⟨newer, hnewer, hle⟩ := hfirst.finalHead head hhead
    obtain ⟨newest, hnewest, hle'⟩ := hsecond.finalHead newer hnewer
    exact ⟨newest, hnewest, hle.trans hle'⟩
  isFinal := by
    intro ref hlt hfinal
    rcases hsecond.isFinal ref (hlt.trans_le hallocated) hfinal with hmiddle | habove
    · exact hfirst.isFinal ref hlt hmiddle
    · right
      intro head hhead
      obtain ⟨newer, hnewer, hle⟩ := hfirst.finalHead head hhead
      have hlater := hle.trans_lt (habove newer hnewer)
      rwa [hfirst.height ref hlt] at hlater
  tracked := by
    intro ref htrack
    rcases hfirst.tracked ref htrack with hmiddle | hold
    · rcases hsecond.tracked ref hmiddle with hafter | hold
      · exact .inl hafter
      · rw [hfirst.height ref (hlinks.lt_allocated ref htrack)] at hold
        exact .inr hold
    · exact .inr (hold.trans_le hsecond.windowStart)

theorem Pruning.advance {gone : ℕ → Prop} (hprune : Pruning gone before after) :
    Advance before after := by
  constructor
  case windowStart => exact hprune.windowStart.ge
  case height => exact fun ref _ ↦ (hprune.marks ref).2.1
  case finalHead =>
    intro head _
    exact ⟨head, by rwa [hprune.finalHead], (hprune.marks head).2.1.ge⟩
  case isFinal =>
    intro ref _ hfinal
    rw [(hprune.marks ref).2.2.2] at hfinal
    exact .inl hfinal
  case tracked =>
    intro ref htrack
    by_cases hgone : gone ref
    · rw [hprune.windowStart]
      exact .inr (hprune.gone_low ref hgone).1
    · exact .inl ((hprune.tracked ref).mpr ⟨htrack, hgone⟩)

/-- A larger height that was heard of moves the window. -/
theorem advance_withMaximum (tracker : RecentBlocksTracker Content) (height : ℕ) :
    Advance tracker { tracker with
      maximumHeightAvailable := max tracker.maximumHeightAvailable height } where
  windowStart := windowStart_withMaximum tracker height
  height := fun _ _ ↦ rfl
  finalHead := fun head hhead ↦ ⟨head, hhead, le_rfl⟩
  isFinal := fun _ _ hfinal ↦ .inl hfinal
  tracked := fun _ htrack ↦ .inl htrack

/-- The block that is added, with what it reports as final. -/
theorem advance_report {content places newFinal inserted finalized raised}
    (hrecord : before.Records added) (hinsert : Insertion block content before inserted)
    (hfinalization : Finalization block.lastFinalBlock inserted finalized newFinal)
    (hswitch : Switch finalized raised)
    (hmaximum : raised.maximumHeightAvailable = max before.maximumHeightAvailable block.height)
    (hraised : raised.Records (added ++ [(block, content)]))
    (hbefore : ∀ head ∈ before.finalHead, head ∈ places)
    (hchain : raised.FinalChain (added ++ [(block, content)]) (places ++ newFinal))
    (hheights : HeightsAscend ((added ++ [(block, content)]).map Prod.fst)) :
    Advance before raised := by
  have hsame := hfinalization.links.trans hswitch.links
  have hheight : ∀ ref < before.allocated,
      (raised.nodes ref).height = (before.nodes ref).height := by
    intro ref hlt
    rw [hsame.height, (hinsert.old ref hlt.ne).2.1]
  have hheadLt : ∀ head ∈ before.finalHead, head < before.allocated := fun head hhead ↦
    hrecord.links.lt_allocated head (hrecord.heads.finalHead_tracked head hhead)
  constructor
  case windowStart => exact windowStart_raised hinsert hfinalization hswitch hmaximum
  case height => exact hheight
  case finalHead => exact finalHead_raised hinsert hfinalization hswitch hrecord
  case isFinal =>
    intro ref hlt hfinal
    rcases (FinalChain.report_isFinal hfinalization hswitch ref).mp hfinal with hold | hnew
    · rw [(hinsert.old ref hlt.ne).2.2.2] at hold
      exact .inl hold
    · right
      intro head hhead
      have hascending := List.pairwise_append.mp (hchain.ascending hraised hheights)
      have hless := hascending.2.2 head (hbefore head hhead) ref hnew
      rwa [hheight ref hlt, hheight head (hheadLt head hhead)] at hless
  case tracked =>
    intro ref htrack
    exact .inl ((tracked_raised hinsert hfinalization hswitch hrecord ref).mpr (.inl htrack))

theorem notifyMaximumHeightAvailable_advance (hlinks : before.Links) {height}
    (hnotify : before.notifyMaximumHeightAvailable height = .ok after) : Advance before after := by
  obtain ⟨_, _, hpruned, hprune⟩ := notifyMaximumHeightAvailable_eq_ok hlinks height
  obtain rfl := ok.inj (hpruned.symm.trans hnotify)
  exact (advance_withMaximum before height).trans hprune.advance hlinks le_rfl

end RecentBlocksTracker

/-- Adding a block advances the tracker; the block is tracked unless it is too old. -/
theorem TrackerHistory.Exact.addBlock_advance {Content : Type} {history : TrackerHistory Content}
    {after : RecentBlocksTracker Content} {content : Content} {newFinalBlocks : List (ℕ × Content)}
    (hexact : history.Exact)
    (hadd : history.tracker.addBlock block content = .ok (after, newFinalBlocks))
    (hguarantees : IndexerGuarantees ((history.added ++ [(block, content)]).map Prod.fst))
    (hheights : HeightsAscend ((history.added ++ [(block, content)]).map Prod.fst)) :
    history.tracker.Advance after ∧
      (after.Tracked history.added.length ∨ block.height < after.windowStart) := by
  have hrecord := hexact.records
  cases hlookup : history.tracker.hashToNode block.hash with
  | some =>
    rw [addBlock_of_known hlookup] at hadd
    exact absurd hadd (by simp)
  | none =>
    obtain ⟨_, _, raised, _, _, _, hpruned, hinsert,
      hfinalization, hswitch, hmaximum, hheads, hprune⟩ :=
        addBlock_eq_ok hrecord.links hrecord.heads content hlookup
    obtain ⟨rfl, -⟩ := Prod.mk.inj (ok.inj (hpruned.symm.trans hadd))
    have hlinks := hinsert.links hrecord.links hlookup
    have hsame := hfinalization.links.trans hswitch.links
    have hraised := hrecord.insertion hlookup hinsert hsame hheads
    have hbefore : IndexerGuarantees (history.added.map Prod.fst) := by
      rw [List.map_append] at hguarantees
      exact hguarantees.of_append
    obtain ⟨_, hchain, -⟩ := hexact.streams hbefore
    have hreport := RecentBlocksTracker.FinalChain.report hfinalization hswitch
      (hchain.insertion hrecord hlookup hinsert) hlinks hraised
      ⟨(block, content), List.mem_append_right _ (List.mem_singleton_self _), rfl⟩ hguarantees
    have hadvance := advance_report hrecord hinsert hfinalization
      hswitch hmaximum hraised hchain.finalHead_mem hreport hheights
    have hallocated : history.tracker.allocated ≤ raised.allocated := by
      rw [hsame.allocated, hinsert.allocated]
      exact Nat.le_succ _
    refine ⟨hadvance.trans hprune.advance hrecord.links hallocated, ?_⟩
    have hnew := (tracked_raised hinsert hfinalization hswitch hrecord _).mpr (.inr rfl)
    refine (hprune.advance.tracked _ hnew).imp_right fun hold ↦ ?_
    rwa [(hraised.node _ block content (List.getElem?_concat_length ..)).2] at hold

/-! ### Why a request may have left the queue -/

namespace PendingRequests

variable {RequestType : Type}

/-- What a check does to the number of attempts, and when it may remove a request that is not
discarded. -/
structure CountsAttempts (request : QueuedRequest RequestType)
    (result : QueuedRequest RequestType × RequestCheck) : Prop where
  attempts : result.1.attempts = request.attempts + if result.2 = .attempt then 1 else 0
  remove : result.2 = .remove → maxAttemptsPerRequestAsLeader ≤ request.attempts

theorem leadRequest_counts (now : ℕ) (request : QueuedRequest RequestType) :
    CountsAttempts request (leadRequest now request) := by
  unfold leadRequest
  split_ifs with hmany
  · exact ⟨rfl, fun _ ↦ hmany⟩
  · exact ⟨rfl, nofun⟩
  · exact ⟨rfl, nofun⟩

theorem workOnRequest_counts (now : ℕ) (eligible : Finset ParticipantId) (me : ParticipantId)
    (request : QueuedRequest RequestType) :
    CountsAttempts request (workOnRequest now eligible me request) := by
  unfold workOnRequest
  cases request.currentLeader eligible with
  | none => exact ⟨rfl, nofun⟩
  | some leader =>
    dsimp only
    split_ifs
    · have hcounts := leadRequest_counts now { request with selectedLeader := some leader }
      exact ⟨hcounts.attempts, hcounts.remove⟩
    · exact ⟨rfl, nofun⟩

variable {recentBlocks : RecentBlocksTracker BufferedBlockData}
  {request : QueuedRequest RequestType}

theorem checkRequest_counts (now : ℕ) (eligible : Finset ParticipantId) (me : ParticipantId)
    (hkept : isDiscarded
      (recentBlocks.classifyBlock request.blockHash request.blockHeight) = false) :
    CountsAttempts request (checkRequest now eligible recentBlocks me request) := by
  unfold checkRequest
  dsimp only
  split_ifs with hearly hactive husable hdiscarded
  · exact ⟨rfl, nofun⟩
  · exact ⟨rfl, nofun⟩
  · have hcounts := workOnRequest_counts now eligible me
      { request with nextCheckDue := now + checkEachRequestInterval }
    exact ⟨hcounts.attempts, hcounts.remove⟩
  · exact absurd hdiscarded (by simp [hkept])
  · exact ⟨rfl, nofun⟩

variable [Request RequestType] {queue next : PendingRequests RequestType} {now : ℕ}
  {network : NetworkView} {attempts : List RequestType} {requestId : RequestId}

/-- A call hands out at most one attempt for a request. -/
theorem Checked.count_attempts (hchecked : Checked queue now network next attempts)
    (hfound : queue.requests.get? requestId = some request) :
    (attempts.map Request.getId).count requestId =
      if (checkRequest now (eligibleLeaders queue.allParticipants network) next.recentBlocks
        queue.myParticipantId request).2 = .attempt then 1 else 0 := by
  have hnodup : (attempts.map Request.getId).Nodup := by
    have hdistinct := List.pairwise_map.mp queue.requests.distinct
    rw [hchecked.attempts_eq]
    refine List.pairwise_map.mpr (List.pairwise_filterMap.mpr (hdistinct.imp ?_))
    intro _ _ hne _ hgiven _ hother
    split_ifs at hgiven hother
    cases hgiven
    cases hother
    exact hne
  split_ifs with hattempt
  · exact List.count_eq_one_of_mem hnodup
      (hchecked.mem_attempts_iff.mpr ⟨request, hfound, hattempt⟩)
  · refine List.count_eq_zero.mpr fun hmem ↦ ?_
    obtain ⟨_, hother, hcheck⟩ := hchecked.mem_attempts_iff.mp hmem
    obtain rfl := Option.some.inj (hfound.symm.trans hother)
    exact hattempt hcheck

end PendingRequests

namespace RequestHistory

variable {RequestType : Type} [Request RequestType] {sha256 : List UInt8 → BitVec 256}
  {participants : List ParticipantId} {me : ParticipantId}
  {history next : RequestHistory RequestType}

/-- The place is the first in which the request occurs. -/
structure FirstOccurrence (added : List (BlockViewLite × BufferedBlockData))
    (requestId : RequestId) (place : ℕ) (block : BlockViewLite) : Prop where
  occurs : ∃ content, added[place]? = some (block, content) ∧ requestId ∈ content.requests
  first : ∀ earlier < place, ∀ entry, added[earlier]? = some entry → requestId ∉ entry.2.requests

/-- The request is queued with its block, or there is a reason why it is not. -/
def Accounted (history : RequestHistory RequestType) (requestId : RequestId) (place : ℕ)
    (block : BlockViewLite) : Prop :=
  (∃ request, history.queue.requests.get? requestId = some request ∧
      request.blockHash = block.hash ∧ request.blockHeight = block.height ∧
      request.attempts = history.issued.count requestId) ∨
    (∃ entry ∈ history.stream, requestId ∈ entry.2.completedRequests) ∨
    maxAttemptsPerRequestAsLeader ≤ history.issued.count requestId ∨
    history.queue.recentBlocks.Dropped place

/-- Nothing is queued or issued for a request that was not seen, every block is tracked unless it is
too old, and every request is accounted for by the block it was first seen in. -/
structure Accounts (history : RequestHistory RequestType) : Prop where
  unseen : ∀ requestId, (∀ entry ∈ history.added, requestId ∉ entry.2.requests) →
    history.queue.requests.get? requestId = none ∧ requestId ∉ history.issued
  kept : ∀ place < history.added.length, history.queue.recentBlocks.Tracked place ∨
    (history.queue.recentBlocks.nodes place).height < history.queue.recentBlocks.windowStart
  seen : ∀ requestId place block, FirstOccurrence history.added requestId place block →
    history.Accounted requestId place block

theorem start_accounts : (start participants me : RequestHistory RequestType).Accounts where
  unseen := fun _ _ ↦ ⟨rfl, List.not_mem_nil⟩
  kept := fun _ hlt ↦ absurd hlt (Nat.not_lt_zero _)
  seen := fun _ _ _ hoccurrence ↦ by
    obtain ⟨_, hadded, _⟩ := hoccurrence.occurs
    exact absurd hadded (by simp [start])

section

variable {now : ℕ} (haccounts : history.Accounts) (hblocks : history.blocks.Exact)
  (hnext : next.blocks.Exact)
include haccounts hblocks hnext

theorem Accounts.newBlock {requests : List RequestType} {completedRequests : List RequestId}
    {newFinalBlocks : List (ℕ × BufferedBlockData)}
    (hadd : history.queue.recentBlocks.addBlock block
      (bufferedBlockData now requests completedRequests) =
        .ok (next.queue.recentBlocks, newFinalBlocks))
    (hnoted : PendingRequests.BlockNoted sha256 history.queue now requests block newFinalBlocks
      next.queue)
    (hadded : next.added = history.added ++
      [(block, bufferedBlockData now requests completedRequests)])
    (hstream : next.stream = history.stream ++ newFinalBlocks)
    (hissued : next.issued = history.issued)
    (hguarantees : IndexerGuarantees (next.added.map Prod.fst))
    (hheights : HeightsAscend (next.added.map Prod.fst)) : next.Accounts := by
  rw [hadded] at hguarantees hheights
  obtain ⟨hadvance, hnewKept⟩ := hblocks.addBlock_advance hadd hguarantees hheights
  change history.queue.recentBlocks.Advance next.queue.recentBlocks at hadvance
  have hallocated : history.queue.recentBlocks.allocated = history.added.length :=
    hblocks.records.allocated
  constructor
  case unseen =>
    intro requestId hunseen
    rw [hadded, List.forall_mem_append, List.forall_mem_singleton] at hunseen
    obtain ⟨hnone, _⟩ := haccounts.unseen requestId hunseen.1
    have hnotIncoming :
        requests.find? (fun request ↦ Request.getId request = requestId) = none := by
      refine List.find?_eq_none.mpr fun request hmem hid ↦ hunseen.2 ?_
      exact List.mem_map.mpr ⟨request, hmem, by simpa using hid⟩
    refine ⟨?_, by rwa [hissued]⟩
    rw [hnoted.get?, hnone, hnotIncoming, ite_self]
    rfl
  case kept =>
    intro place hlt
    rw [hadded, List.length_append, List.length_singleton] at hlt
    rcases Nat.lt_succ_iff_lt_or_eq.mp hlt with hold | rfl
    · exact hadvance.kept (by omega) (haccounts.kept place hold)
    · have hnode := (hnext.records.node history.added.length block _ (by
        show next.added[_]? = _
        rw [hadded]
        exact List.getElem?_concat_length ..)).2
      refine hnewKept.imp_right fun hlow ↦ ?_
      exact hnode.trans_lt hlow
  case seen =>
    intro requestId place first hoccurrence
    obtain ⟨content, hplace, hoccurs⟩ := hoccurrence.occurs
    rw [hadded] at hplace
    rcases added_cases hplace with ⟨hlt, hplace⟩ | ⟨rfl, hentry⟩
    · have hbefore : FirstOccurrence history.added requestId place first :=
        ⟨⟨content, hplace, hoccurs⟩, fun earlier hearlier entry hentry ↦ hoccurrence.first earlier
          hearlier entry (by rw [hadded, List.getElem?_append_left (by omega), hentry])⟩
      rcases haccounts.seen requestId place first hbefore with
        ⟨request, hfound, hhash, hheight, hattempts⟩ | ⟨entry, hentry, hcompleted⟩ | hmany |
          hdropped
      · by_cases hcompleted :
          ∃ finalBlock ∈ newFinalBlocks, requestId ∈ finalBlock.2.completedRequests
        · obtain ⟨entry, hentry, hmem⟩ := hcompleted
          exact .inr (.inl ⟨entry, by rw [hstream]; exact List.mem_append_right _ hentry, hmem⟩)
        · refine .inl ⟨request, ?_, hhash, hheight, by rw [hissued, hattempts]⟩
          rw [hnoted.get?, if_neg hcompleted, hfound, Option.some_or]
      · exact .inr (.inl ⟨entry, by rw [hstream]; exact List.mem_append_left _ hentry, hcompleted⟩)
      · exact .inr (.inr (.inl (by rwa [hissued])))
      · exact .inr (.inr (.inr (hadvance.dropped (by omega) hdropped)))
    · obtain ⟨rfl, rfl⟩ := Prod.mk.inj hentry
      have hunseen : ∀ entry ∈ history.added, requestId ∉ entry.2.requests := by
        intro entry hmem
        obtain ⟨earlier, hearlier⟩ := List.mem_iff_getElem?.mp hmem
        have hearlierLt := (List.getElem?_eq_some_iff.mp hearlier).1
        refine hoccurrence.first earlier hearlierLt entry ?_
        rw [hadded, List.getElem?_append_left hearlierLt, hearlier]
      obtain ⟨hnone, hnotIssued⟩ := haccounts.unseen requestId hunseen
      obtain ⟨incoming, hincoming, hid⟩ := List.mem_map.mp hoccurs
      have hsome : (requests.find? fun request ↦ Request.getId request = requestId).isSome :=
        List.find?_isSome.mpr ⟨incoming, hincoming, decide_eq_true hid⟩
      obtain ⟨found, hfound⟩ := Option.isSome_iff_exists.mp hsome
      refine .inl ⟨history.queue.entryOf sha256 now first found, ?_, rfl, rfl, ?_⟩
      · rw [hnoted.get?, hnone, ite_self, hfound]
        rfl
      · rw [hissued, List.count_eq_zero.mpr hnotIssued]
        rfl

theorem Accounts.getRequestsToAttempt {network} {attempts : List RequestType}
    (hchecked : PendingRequests.Checked history.queue now network next.queue attempts)
    (hadded : next.added = history.added) (hstream : next.stream = history.stream)
    (hissued : next.issued = history.issued ++ attempts.map Request.getId) : next.Accounts := by
  have hadvance := notifyMaximumHeightAvailable_advance hblocks.records.links hchecked.recentBlocks
  change history.queue.recentBlocks.Advance next.queue.recentBlocks at hadvance
  have hallocated : history.queue.recentBlocks.allocated = history.added.length :=
    hblocks.records.allocated
  have hkept : ∀ place < next.added.length, next.queue.recentBlocks.Tracked place ∨
      (next.queue.recentBlocks.nodes place).height < next.queue.recentBlocks.windowStart := by
    intro place hlt
    rw [hadded] at hlt
    exact hadvance.kept (by omega) (haccounts.kept place hlt)
  have hgrows : ∀ requestId,
      history.issued.count requestId ≤ next.issued.count requestId := by
    intro _
    rw [hissued, List.count_append]
    exact Nat.le_add_right _ _
  refine ⟨fun requestId hunseen ↦ ?_, hkept, fun requestId place block hoccurrence ↦ ?_⟩
  · rw [hadded] at hunseen
    obtain ⟨hnone, hnotIssued⟩ := haccounts.unseen requestId hunseen
    refine ⟨by rw [hchecked.get?, hnone]; rfl, ?_⟩
    rw [hissued, List.mem_append]
    rintro (hold | hnew)
    · exact hnotIssued hold
    · obtain ⟨_, hfound, -⟩ := hchecked.mem_attempts_iff.mp hnew
      exact absurd (hnone.symm.trans hfound) nofun
  · rw [hadded] at hoccurrence
    obtain ⟨content, hplace, -⟩ := hoccurrence.occurs
    have hlt := (List.getElem?_eq_some_iff.mp hplace).1
    rcases haccounts.seen requestId place block hoccurrence with
      ⟨request, hfound, hhash, hheight, hattempts⟩ | hcompleted | hmany | hdropped
    · have hnode := hnext.records.node place block content (by
        change next.added[place]? = _
        rw [hadded, hplace])
      cases hdiscarded : isDiscarded
          (next.queue.recentBlocks.classifyBlock request.blockHash request.blockHeight) with
      | true =>
        rw [hhash, hheight, ← hnode.1, ← hnode.2] at hdiscarded
        exact .inr (.inr (.inr (dropped_of_isDiscarded hnext.records.links
          (hkept place (by rwa [hadded])) hdiscarded)))
      | false =>
        have hcounts := checkRequest_counts now
          (eligibleLeaders history.queue.allParticipants network)
          history.queue.myParticipantId hdiscarded
        have hsame := checkRequest_same now
          (eligibleLeaders history.queue.allParticipants network)
          next.queue.recentBlocks history.queue.myParticipantId request
        have hget := hchecked.get? requestId
        rw [hfound, Option.bind_some] at hget
        have hcount := hchecked.count_attempts hfound
        generalize checkRequest now _ _ _ request = result at *
        by_cases hremove : result.2 = .remove
        · have hmany := hcounts.remove hremove
          rw [hattempts] at hmany
          exact .inr (.inr (.inl (hmany.trans (hgrows requestId))))
        · refine .inl ⟨result.1, by rw [hget, if_neg hremove], hsame.2.1.trans hhash,
            hsame.2.2.1.trans hheight, ?_⟩
          rw [hcounts.attempts, hattempts, hissued, List.count_append, hcount]
    · exact .inr (.inl (by rwa [hstream]))
    · exact .inr (.inr (.inl (hmany.trans (hgrows requestId))))
    · exact .inr (.inr (.inr (hadvance.dropped (by omega) hdropped)))

end

/-- The task that runs an attempt changes only the progress of a request. -/
theorem Accounts.progress {queue : PendingRequests RequestType} (haccounts : history.Accounts)
    (hchanged : PendingRequests.ProgressChanged history.queue queue)
    (hblocks : queue.recentBlocks = history.queue.recentBlocks) :
    Accounts { history with queue := queue } := by
  obtain ⟨touch, htouch, hget⟩ := hchanged.get?
  constructor
  case unseen =>
    intro requestId hunseen
    obtain ⟨hnone, hnotIssued⟩ := haccounts.unseen requestId hunseen
    refine ⟨?_, hnotIssued⟩
    dsimp only
    rw [hget, hnone]
    rfl
  case kept =>
    dsimp only
    rw [hblocks]
    exact haccounts.kept
  case seen =>
    intro requestId place block hoccurrence
    unfold Accounted
    dsimp only
    rw [hblocks]
    refine (haccounts.seen requestId place block hoccurrence).imp_left ?_
    rintro ⟨request, hfound, hhash, hheight, hattempts⟩
    obtain ⟨hsame, hcount⟩ := htouch request
    refine ⟨touch request, ?_, hsame.2.1.trans hhash, hsame.2.2.1.trans hheight,
      hcount.trans hattempts⟩
    rw [hget, hfound]
    rfl

variable {event : RequestEvent RequestType}

theorem Accounts.step (haccounts : history.Accounts)
    (hfaithful : Faithful sha256 participants me history)
    (hstep : history.step sha256 event = .ok next)
    (hguarantees : IndexerGuarantees (next.added.map Prod.fst))
    (hheights : HeightsAscend (next.added.map Prod.fst)) : next.Accounts := by
  have hnext := (hfaithful.step hstep).blocks
  cases event with
  | newBlock =>
    rcases step_newBlock hstep with
      ⟨newFinalBlocks, hadd, hnoted, hadded, hstream, hissued⟩ | ⟨-, rfl⟩
    · exact haccounts.newBlock hfaithful.blocks hnext hadd hnoted hadded hstream hissued
        hguarantees hheights
    · exact haccounts
  | getRequestsToAttempt =>
    obtain ⟨_, hget, hrest⟩ := step_getRequestsToAttempt hstep
    exact haccounts.getRequestsToAttempt hfaithful.blocks hnext
      (getRequestsToAttempt_eq_ok hget) (by rw [hrest]) (by rw [hrest])
      (by rw [hrest])
  | attemptDropped dropped =>
    cases hstep
    exact haccounts.progress (history.queue.attemptDropped_changes dropped) rfl
  | responseSubmitted submitted time =>
    cases hstep
    exact haccounts.progress (history.queue.responseSubmitted_changes submitted time) rfl

/-- The blocks that were added stay at the front. -/
theorem added_prefix (hstep : history.step sha256 event = .ok next) :
    ∃ later, next.added = history.added ++ later := by
  cases event with
  | newBlock =>
    rcases step_newBlock hstep with ⟨_, _, _, hadded, _, _⟩ | ⟨-, rfl⟩
    · exact ⟨_, hadded⟩
    · exact ⟨[], (List.append_nil _).symm⟩
  | getRequestsToAttempt =>
    obtain ⟨_, _, hrest⟩ := step_getRequestsToAttempt hstep
    exact ⟨[], by rw [hrest, List.append_nil]⟩
  | attemptDropped | responseSubmitted =>
    cases hstep
    exact ⟨[], (List.append_nil _).symm⟩

variable {events : List (RequestEvent RequestType)}

theorem foldlM_accounts (hfaithful : Faithful sha256 participants me history)
    (haccounts : IndexerGuarantees (history.added.map Prod.fst) →
      HeightsAscend (history.added.map Prod.fst) → history.Accounts)
    (hrun : events.foldlM (step sha256) history = .ok next)
    (hguarantees : IndexerGuarantees (next.added.map Prod.fst))
    (hheights : HeightsAscend (next.added.map Prod.fst)) : next.Accounts := by
  induction events generalizing history with
  | nil =>
    cases hrun
    exact haccounts hguarantees hheights
  | cons _ _ ih =>
    obtain ⟨_, hstep, hrest⟩ := bind_eq_ok.mp hrun
    refine ih (hfaithful.step hstep) (fun hmiddle hascend ↦ ?_) hrest
    obtain ⟨_, hlater⟩ := added_prefix hstep
    rw [hlater, List.map_append] at hmiddle hascend
    refine (haccounts hmiddle.of_append hascend.of_append).step hfaithful hstep ?_ ?_
    · rwa [hlater, List.map_append]
    · rwa [hlater, List.map_append]

/-- Every request is accounted for after any events. -/
theorem run_accounts (hrun : run sha256 participants me events = .ok history)
    (hguarantees : IndexerGuarantees (history.added.map Prod.fst))
    (hheights : HeightsAscend (history.added.map Prod.fst)) : history.Accounts :=
  foldlM_accounts start_faithful (fun _ _ ↦ start_accounts) hrun hguarantees hheights

end RequestHistory

/-- A request is still pending whose first block is in the window and final, or canonical or not but
higher than the final head, as long as its response is in no final block and it had fewer than the
maximum number of attempts. -/
theorem liveRequest_pending {RequestType : Type} [Request RequestType]
    {sha256 : List UInt8 → BitVec 256} {participants : List ParticipantId} {me : ParticipantId}
    {events : List (RequestEvent RequestType)} {history : RequestHistory RequestType}
    (hrun : run sha256 participants me events = .ok history)
    (hguarantees : IndexerGuarantees (history.added.map Prod.fst))
    (hheights : HeightsAscend (history.added.map Prod.fst)) {requestId : RequestId} {place : ℕ}
    {block : BlockViewLite}
    (hoccurrence : RequestHistory.FirstOccurrence history.added requestId place block)
    (hwindow : history.queue.recentBlocks.windowStart ≤ block.height)
    (hlive : (history.queue.recentBlocks.nodes place).isFinal = true ∨
      ∀ head ∈ history.queue.recentBlocks.finalHead,
        (history.queue.recentBlocks.nodes head).height < block.height)
    (hunanswered : ∀ entry ∈ history.stream, requestId ∉ entry.2.completedRequests)
    (hattempts : history.issued.count requestId < maxAttemptsPerRequestAsLeader) :
    (history.queue.requests.get? requestId).isSome := by
  have hrecord := (run_faithful hrun).blocks.records
  obtain ⟨content, hadded, -⟩ := hoccurrence.occurs
  have hheight : (history.queue.recentBlocks.nodes place).height = block.height :=
    (hrecord.node place block content hadded).2
  have haccount := (run_accounts hrun hguarantees hheights).seen requestId place
    block hoccurrence
  rcases haccount with ⟨request, hfound, -⟩ | ⟨entry, hentry, hcompleted⟩ | hmany | hdropped
  · exact Option.isSome_iff_exists.mpr ⟨request, hfound⟩
  · exact absurd hcompleted (hunanswered entry hentry)
  · exact absurd hmany (not_le.mpr hattempts)
  · rcases hdropped with hold | ⟨hnotFinal, head, hhead, hlow⟩
    · exact absurd hold (not_lt.mpr (hheight.symm ▸ hwindow))
    · rcases hlive with hfinal | hhigher
      · exact absurd hfinal (by simp [hnotFinal])
      · exact absurd (hhigher head hhead) (not_lt.mpr (hheight ▸ hlow))

/-- A request is in two blocks at the same height, the first of which is canonical. -/
theorem liveRequest_pending_fork : ∃ history, run (fun _ ↦ 0) [1] 1
      [.newBlock 0 [] [] ⟨1, 10, 0, 0⟩, .newBlock 0 [7] [] ⟨2, 11, 1, 0⟩,
        .newBlock 0 [(7 : RequestId)] [] ⟨3, 11, 1, 0⟩,
        .getRequestsToAttempt 5 ⟨{1}, fun _ ↦ some 11⟩] = .ok history ∧
    (history.queue.requests.get? 7).isSome := by
  refine Exists.imp (fun history ⟨hrun, hadded, hwindow, hfinalHead, hstream, hissued⟩ ↦
    ⟨hrun, ?_⟩) (exists_of_decide (fun history ↦
      history.added = [(⟨1, 10, 0, 0⟩, ⟨[], [], 0⟩), (⟨2, 11, 1, 0⟩, ⟨[7], [], 0⟩),
        (⟨3, 11, 1, 0⟩, ⟨[7], [], 0⟩)] ∧ history.queue.recentBlocks.windowStart ≤ 11 ∧
      history.queue.recentBlocks.finalHead = none ∧ history.stream = [] ∧
      history.issued.count 7 < maxAttemptsPerRequestAsLeader) (by decide +kernel))
  have hoccurrence : RequestHistory.FirstOccurrence history.added 7 1 ⟨2, 11, 1, 0⟩ := by
    rw [hadded]
    refine ⟨⟨⟨[7], [], 0⟩, rfl, List.mem_singleton_self _⟩, fun earlier hearlier entry hentry ↦ ?_⟩
    obtain rfl : earlier = 0 := by omega
    cases hentry
    exact List.not_mem_nil
  refine liveRequest_pending hrun ?_ ?_ hoccurrence hwindow ?_ ?_ hissued
  · rw [hadded]
    exact .of_parents (by decide) (by decide)
  · rw [hadded]
    unfold HeightsAscend
    decide
  · rw [hfinalHead]
    exact .inr nofun
  · rw [hstream]
    exact nofun

/-- A request is in two blocks of a fork. The second block becomes final, but the queue knows the
request by the first one only, and drops it. -/
theorem finalRequest_dropped : ∃ history, run (fun _ ↦ 0) [1] 1
      [.newBlock 0 [] [] ⟨1, 10, 0, 0⟩, .newBlock 0 [(7 : RequestId)] [] ⟨2, 11, 1, 0⟩,
        .newBlock 0 [7] [] ⟨3, 12, 1, 0⟩, .newBlock 0 [] [] ⟨4, 13, 3, 0⟩,
        .newBlock 0 [] [] ⟨5, 14, 4, 3⟩,
        .getRequestsToAttempt 5 ⟨{1}, fun _ ↦ some 14⟩] = .ok history ∧
    IndexerGuarantees (history.added.map Prod.fst) ∧ HeightsAscend (history.added.map Prod.fst) ∧
    history.added[2]? = some (⟨3, 12, 1, 0⟩, ⟨[7], [], 0⟩) ∧
    history.queue.recentBlocks.Tracked 2 ∧
    (history.queue.recentBlocks.nodes 2).isFinal = true ∧
    (history.queue.recentBlocks.nodes 2).canonical = true ∧
    history.queue.recentBlocks.windowStart ≤ 12 ∧
    (∀ entry ∈ history.stream, 7 ∉ entry.2.completedRequests) ∧
    history.issued.count 7 < maxAttemptsPerRequestAsLeader ∧
    history.queue.requests.get? 7 = none := by
  refine Exists.imp (fun history
      ⟨hrun, hblocks, hadded, hlookup, hfinal, hcanonical, hwindow, hunanswered, hissued, hnone⟩ ↦
    ⟨hrun, ?_, ?_, hadded, ?_, hfinal, hcanonical, hwindow, hunanswered, hissued,
      Option.isNone_iff_eq_none.mp hnone⟩) (exists_of_decide (fun history ↦
      history.added.map Prod.fst = [⟨1, 10, 0, 0⟩, ⟨2, 11, 1, 0⟩, ⟨3, 12, 1, 0⟩, ⟨4, 13, 3, 0⟩,
        ⟨5, 14, 4, 3⟩] ∧ history.added[2]? = some (⟨3, 12, 1, 0⟩, ⟨[7], [], 0⟩) ∧
      history.queue.recentBlocks.hashToNode 3 = some 2 ∧
      (history.queue.recentBlocks.nodes 2).isFinal = true ∧
      (history.queue.recentBlocks.nodes 2).canonical = true ∧
      history.queue.recentBlocks.windowStart ≤ 12 ∧
      (∀ entry ∈ history.stream, 7 ∉ entry.2.completedRequests) ∧
      history.issued.count 7 < maxAttemptsPerRequestAsLeader ∧
      (history.queue.requests.get? 7).isNone = true) (by decide +kernel))
  · rw [hblocks]
    exact .of_parents (by decide) (by decide)
  · rw [hblocks]
    unfold HeightsAscend
    decide
  · have hlinks := (run_faithful hrun).blocks.records.links
    exact ((hlinks.index _ _).mp hlookup).1

end NearMpc.Node
