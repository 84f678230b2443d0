import NearMpc.Contract.AttestationOwnership

/-!
# The list of allowed images

Images are added at the end of the list, and an image whose grace period is over ends the validity
of all older ones. Entries that are no longer valid are only removed now and then, by a cleanup and
by the next insertion. The results here are about any sequence of both, at non-decreasing times and
with one grace period. The list stays sorted, and when a cleanup happens cannot be seen from the
valid entries. Follows `tee/proposal.rs`.
-/

set_option autoImplicit false

namespace NearMpc.Contract.AllowedDockerImageHashes

open Library

variable {host : AttestationHost} {deadlineDuration now later : ℕ}
  {images : List AllowedMpcDockerImage}

/-! ### Valid entries -/

theorem graceIsOver_mono (hlater : now ≤ later) {image}
    (hover : graceIsOver deadlineDuration now image = true) :
    graceIsOver deadlineDuration later image = true := by
  simp only [graceIsOver, Bool.or_eq_true, decide_eq_true_eq] at hover ⊢
  exact hover.imp id fun hover ↦ hover.trans_le hlater

theorem validEntries_suffix (images : List AllowedMpcDockerImage) :
    validEntries deadlineDuration now images <:+ images := by
  induction images with
  | nil => exact List.suffix_refl _
  | cons _ _ ih =>
    unfold validEntries
    split_ifs
    · exact ih.trans (List.suffix_cons _ _)
    · exact List.suffix_refl _

/-- The last entry is always valid. -/
theorem getLast?_validEntries (images : List AllowedMpcDockerImage) :
    (validEntries deadlineDuration now images).getLast? = images.getLast? := by
  induction images with
  | nil => rfl
  | cons _ rest ih =>
    unfold validEntries
    split_ifs with hrest
    · cases rest with
      | nil => simp at hrest
      | cons => rw [ih, List.getLast?_cons_cons]
    · rfl

/-- A cleanup does not change what is valid later. -/
theorem validEntries_validEntries (hlater : now ≤ later) (images : List AllowedMpcDockerImage) :
    validEntries deadlineDuration later (validEntries deadlineDuration now images) =
      validEntries deadlineDuration later images := by
  induction images with
  | nil => rfl
  | cons image rest ih =>
    rw [validEntries]
    split_ifs with hrest
    · have hstill : rest.any (graceIsOver deadlineDuration later) = true := by
        rw [List.any_eq_true] at hrest ⊢
        exact hrest.imp fun image hover ↦ ⟨hover.1, graceIsOver_mono hlater hover.2⟩
      rw [ih, validEntries, if_pos hstill]
    · rfl

theorem validEntries_subset (hlater : now ≤ later) (images : List AllowedMpcDockerImage) :
    validEntries deadlineDuration later images ⊆ validEntries deadlineDuration now images := by
  rw [← validEntries_validEntries hlater]
  exact (validEntries_suffix _).subset

/-! ### Insertion -/

/-- Sorted by time, without duplicates, and not from the future. -/
structure Ordered (now : ℕ) (images : List AllowedMpcDockerImage) : Prop where
  sorted : images.Pairwise fun first second ↦ first.added ≤ second.added
  nodup : (images.map (·.imageHash)).Nodup
  added_le : ∀ image ∈ images, image.added * nanosPerSecond ≤ now

theorem Ordered.sublist (hordered : Ordered now images) {rest} (hrest : rest.Sublist images)
    (hlater : now ≤ later) : Ordered later rest where
  sorted := hordered.sorted.sublist hrest
  nodup := hordered.nodup.sublist (hrest.map _)
  added_le := fun image himage ↦ (hordered.added_le image (hrest.subset himage)).trans hlater

theorem Ordered.validEntries (hordered : Ordered now images) :
    Ordered now (validEntries deadlineDuration now images) :=
  hordered.sublist (validEntries_suffix images).sublist le_rfl

theorem insertIndex_eq (hordered : Ordered now images) :
    insertIndex now images = images.length := by
  rw [insertIndex, if_neg]
  simpa using hordered.added_le

theorem mem_insert {codeHash image}
    (himage : image ∈ insert host deadlineDuration now images codeHash) :
    image ∈ validEntries deadlineDuration now images ∨ image.imageHash = codeHash := by
  rcases List.mem_append.mp himage with hbefore | hafter
  · exact Or.inl (List.mem_of_mem_eraseP (List.mem_of_mem_take hbefore))
  · rcases List.mem_cons.mp hafter with rfl | hafter
    · exact Or.inr rfl
    · exact Or.inl (List.mem_of_mem_eraseP (List.mem_of_mem_drop hafter))

/-- An image is put at the end, and has no other entry. -/
theorem exists_insert_eq (host : AttestationHost) (deadlineDuration : ℕ)
    (hordered : Ordered now images) (codeHash : MpcDockerImageHash) :
    ∃ rest entry, insert host deadlineDuration now images codeHash = rest ++ [entry] ∧
      rest.Sublist (validEntries deadlineDuration now images) ∧
      codeHash ∉ rest.map (·.imageHash) ∧
      entry.imageHash = codeHash ∧ entry.added = now / nanosPerSecond := by
  have hvalid : Ordered now (validEntries deadlineDuration now images) := hordered.validEntries
  have hsublist := (validEntries deadlineDuration now images).eraseP_sublist
    (p := fun image ↦ image.imageHash = codeHash)
  refine ⟨_, ⟨codeHash, host.getDockerComposeHash codeHash, now / nanosPerSecond⟩, ?_, hsublist, ?_,
    rfl, rfl⟩
  · simp only [insert, insertIndex_eq (hvalid.sublist hsublist le_rfl), List.take_length,
      List.drop_length]
  · have herase := hvalid.nodup.not_mem_erase (a := codeHash)
    rw [List.erase_eq_eraseP, List.eraseP_map] at herase
    simpa only [Function.comp_def, beq_eq_decide, eq_comm] using herase

theorem Ordered.insert (hordered : Ordered now images) (codeHash : MpcDockerImageHash) :
    Ordered now (insert host deadlineDuration now images codeHash) := by
  obtain ⟨_, _, hinsert, hsublist, hnew, rfl, hadded⟩ :=
    exists_insert_eq host deadlineDuration hordered codeHash
  rw [hinsert]
  have hrest := hordered.validEntries.sublist hsublist le_rfl
  refine ⟨?_, ?_, ?_⟩
  · refine List.pairwise_append.mpr ⟨hrest.sorted, List.pairwise_singleton _ _, ?_⟩
    intro image himage _ hother
    rw [List.mem_singleton.mp hother, hadded]
    exact (Nat.le_div_iff_mul_le (by decide)).mpr (hrest.added_le image himage)
  · rw [List.map_append, List.map_singleton, ← List.concat_eq_append]
    exact hrest.nodup.concat hnew
  · intro image himage
    rcases List.mem_append.mp himage with himage | himage
    · exact hrest.added_le image himage
    · rw [List.mem_singleton.mp himage, hadded]
      exact Nat.div_mul_le_self _ _

/-! ### Runs -/

inductive ImageEvent where
  | insert (codeHash : MpcDockerImageHash)
  | cleanup
deriving DecidableEq, Repr

def ImageEvent.inserted : ImageEvent → Option MpcDockerImageHash
  | .insert codeHash => some codeHash
  | .cleanup => none

def apply (host : AttestationHost) (deadlineDuration : ℕ) (images : List AllowedMpcDockerImage)
    (event : ℕ × ImageEvent) : List AllowedMpcDockerImage :=
  match event.2 with
  | .insert codeHash => insert host deadlineDuration event.1 images codeHash
  | .cleanup => validEntries deadlineDuration event.1 images

variable {event : ℕ × ImageEvent}

theorem Ordered.apply (hordered : Ordered event.1 images) :
    Ordered event.1 (apply host deadlineDuration images event) := by
  obtain ⟨_, event⟩ := event
  cases event with
  | insert codeHash => exact hordered.insert codeHash
  | cleanup => exact hordered.validEntries

/-- The image that was inserted last is the last of the list. -/
theorem getLast?_apply (hordered : Ordered event.1 images) :
    (apply host deadlineDuration images event).getLast?.map (·.imageHash) =
      event.2.inserted.or (images.getLast?.map (·.imageHash)) := by
  obtain ⟨_, event⟩ := event
  cases event with
  | insert codeHash =>
    obtain ⟨_, _, hinsert, -, -, rfl, -⟩ :=
      exists_insert_eq host deadlineDuration hordered codeHash
    simp only [AllowedDockerImageHashes.apply, hinsert, List.getLast?_concat]
    rfl
  | cleanup => exact congrArg _ (getLast?_validEntries images)

variable {events : List (ℕ × ImageEvent)}

theorem run_ordered (host : AttestationHost) (deadlineDuration : ℕ)
    (htimes : events.Pairwise fun first second ↦ first.1 ≤ second.1) {now}
    (hnow : ∀ event ∈ events, event.1 ≤ now) :
    Ordered now (run (apply host deadlineDuration) [] events) ∧
      (run (apply host deadlineDuration) [] events).getLast?.map (·.imageHash) =
        (events.filterMap fun event ↦ event.2.inserted).getLast? := by
  induction events using List.reverseRecOn generalizing now with
  | nil => exact ⟨⟨List.Pairwise.nil, List.nodup_nil, by simp⟩, rfl⟩
  | append_singleton _ event ih =>
    rw [List.pairwise_append] at htimes
    obtain ⟨hordered, hlast⟩ := ih htimes.1 fun earlier hearlier ↦
      htimes.2.2 earlier hearlier event List.mem_cons_self
    rw [run_append, run_cons, run_nil]
    refine ⟨hordered.apply.sublist (List.Sublist.refl _) (hnow event (by simp)), ?_⟩
    rw [getLast?_apply hordered, hlast, List.filterMap_append, List.getLast?_append]
    cases hinserted : event.2.inserted <;> simp [hinserted]

/-- The valid entries do not depend on the cleanups. -/
theorem validEntries_run (htimes : events.Pairwise fun first second ↦ first.1 ≤ second.1)
    (hlater : ∀ event ∈ events, event.1 ≤ later) :
    validEntries deadlineDuration later (run (apply host deadlineDuration) [] events) =
      validEntries deadlineDuration later (run (apply host deadlineDuration) []
        (events.filter fun event ↦ event.2.inserted.isSome)) := by
  induction events using List.reverseRecOn generalizing later with
  | nil => rfl
  | append_singleton _ event ih =>
    obtain ⟨_, event⟩ := event
    rw [List.pairwise_append] at htimes
    rw [List.filter_append, run_append, run_append]
    cases event with
    | insert =>
      -- an insertion only depends on the valid entries
      have hsame := ih htimes.1 fun earlier hearlier ↦
        htimes.2.2 earlier hearlier _ List.mem_cons_self
      simp [apply, insert, hsame, ImageEvent.inserted]
    | cleanup =>
      exact (validEntries_validEntries (hlater _ (by simp)) _).trans
        (ih htimes.1 fun earlier hearlier ↦ hlater earlier (List.mem_append_left _ hearlier))

/-- An image that is not valid stays so while it is not inserted. -/
theorem not_valid_run {hash} (htimes : (now :: (events.map Prod.fst ++ [later])).Pairwise (· ≤ ·))
    (hevents : ∀ event ∈ events, event.2 ≠ .insert hash)
    (hinvalid : ∀ image ∈ validEntries deadlineDuration now images, image.imageHash ≠ hash) :
    ∀ image ∈ validEntries deadlineDuration later (run (apply host deadlineDuration) images events),
      image.imageHash ≠ hash := by
  induction events generalizing now images with
  | nil =>
    have hlater : now ≤ later := by simpa using htimes
    exact fun image himage ↦ hinvalid image (validEntries_subset hlater images himage)
  | cons event _ ih =>
    obtain ⟨time, event⟩ := event
    rw [List.forall_mem_cons] at hevents
    obtain ⟨hnow, htimes⟩ := List.pairwise_cons.mp htimes
    have hstill : ∀ image ∈ validEntries deadlineDuration time images, image.imageHash ≠ hash :=
      fun image himage ↦
        hinvalid image (validEntries_subset (hnow time List.mem_cons_self) images himage)
    refine ih htimes hevents.2 fun image himage ↦ ?_
    cases event with
    | insert =>
      rcases mem_insert ((validEntries_suffix _).subset himage) with himage | rfl
      · exact hstill image himage
      · exact fun hsame ↦ hevents.1 (congrArg _ hsame)
    | cleanup => exact hstill image (validEntries_validEntries le_rfl images ▸ himage)

/-- The list is sorted, without duplicates, ends with the image that was inserted last, and is not
empty once there is one. Cleanups cannot be seen in the valid entries. An image that is not valid
stays so until it is inserted again. -/
theorem imageList_wellBehaved (host : AttestationHost) (deadlineDuration : ℕ)
    (events : List (ℕ × ImageEvent))
    (htimes : events.Pairwise fun first second ↦ first.1 ≤ second.1) :
    let after := run (apply host deadlineDuration)
    let valid := validEntries deadlineDuration
    let images := after [] events
    images.Pairwise (fun first second ↦ first.added ≤ second.added) ∧
      (images.map (·.imageHash)).Nodup ∧
      images.getLast?.map (·.imageHash) =
        (events.filterMap fun event ↦ event.2.inserted).getLast? ∧
      (events.filterMap (fun event ↦ event.2.inserted) ≠ [] → images ≠ []) ∧
      (∀ later, (∀ event ∈ events, event.1 ≤ later) →
        valid later images =
          valid later (after [] (events.filter fun event ↦ event.2.inserted.isSome))) ∧
      ∀ hash now later laterEvents,
        (now :: (laterEvents.map Prod.fst ++ [later])).Pairwise (· ≤ ·) →
        (∀ event ∈ laterEvents, event.2 ≠ .insert hash) →
        (∀ image ∈ valid now images, image.imageHash ≠ hash) →
        ∀ image ∈ valid later (after images laterEvents), image.imageHash ≠ hash := by
  obtain ⟨hordered, hlast⟩ := run_ordered host deadlineDuration htimes fun event hevent ↦
    List.le_sum_of_mem (List.mem_map_of_mem hevent)
  refine ⟨hordered.sorted, hordered.nodup, hlast, fun hinserted hempty ↦ hinserted ?_,
    fun later hlater ↦ validEntries_run htimes hlater,
    fun hash now later laterEvents ↦ not_valid_run⟩
  rw [hempty] at hlast
  exact List.getLast?_eq_none_iff.mp hlast.symm

/-- With a grace period of ten seconds, the image of second 0 is not valid in second 20, after that
of second 5, and a cleanup in second 30 does not bring it back. -/
theorem imageList_wellBehaved_two :
    ∃ host images,
      images = run (apply host 10) [] [(0, .insert 1), (5 * nanosPerSecond, .insert 2)] ∧
      images ≠ [] ∧
      (∀ image ∈ validEntries 10 (20 * nanosPerSecond) images, image.imageHash ≠ 1) ∧
      ∀ image ∈ validEntries 10 (40 * nanosPerSecond)
        (run (apply host 10) images [(30 * nanosPerSecond, .cleanup)]), image.imageHash ≠ 1 := by
  have hwellBehaved := imageList_wellBehaved TeeContract.SubmitterAndParticipant.localHost 10
    [(0, .insert 1), (5 * nanosPerSecond, .insert 2)] (by decide)
  have hinvalid : ∀ image ∈ validEntries 10 (20 * nanosPerSecond) (run
      (apply TeeContract.SubmitterAndParticipant.localHost 10) []
      [(0, .insert 1), (5 * nanosPerSecond, .insert 2)]), image.imageHash ≠ 1 := by
    decide +kernel
  exact ⟨_, _, rfl, hwellBehaved.2.2.2.1 (by decide), hinvalid,
    hwellBehaved.2.2.2.2.2 1 _ _ _ (by decide) (by decide) hinvalid⟩

end NearMpc.Contract.AllowedDockerImageHashes
