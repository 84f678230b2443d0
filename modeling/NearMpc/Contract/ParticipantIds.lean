import NearMpc.Contract.ParameterChanges
import NearMpc.Library.OrderedMap

/-!
# Participant ids along a run of the contract

The participants of the network are known to the nodes by their ids: key shares, assets and votes
are kept under them. An id that has belonged to one account must not be handed to another.

A proposal for new parameters keeps the ids of the accounts it keeps, and numbers new accounts from
the `next_id` of the parameters in force. So ids are never handed out twice as long as `next_id`
does not fall. `validate_incoming_proposal` ties the proposed `next_id` to the old one only when the
proposal adds an account: a proposal that merely removes participants may lower it to just above the
ids that are left, and the next account to join then gets the id of one that was removed.
`KeepsNextId` excludes such proposals. A resharing that is cancelled or superseded also gives up the
numbers of its proposal; `KeepsNumbering` excludes that too.

`Follows` is the relation between the participants before and after: later ones either were there
before, under the same id, or have ids from `next_id` on. Every call of a run extends it.
-/

set_option autoImplicit false

namespace NearMpc.Contract

open Library Library.Outcome
open Std (TreeMap)

/-! ### Valid participants -/

namespace Participants

/-- The id belongs to the account. -/
def Maps (self : Participants) (id : ParticipantId) (account : AccountId) : Prop :=
  ∃ entry ∈ self.participants, entry.2.1 = id ∧ entry.1 = account

/-- What `validate` checks. -/
structure Valid (members : Participants) : Prop where
  below : ∀ entry ∈ members.participants, entry.2.1 < members.nextId
  ids : (members.participants.map fun entry ↦ entry.2.1).Nodup
  accounts : (members.participants.map fun entry ↦ entry.1).Nodup

theorem nodup_of_card {Value : Type} [DecidableEq Value] {values : List Value}
    (hcard : values.toFinset.card = values.length) : values.Nodup :=
  Multiset.coe_nodup.mp (Multiset.toFinset_card_eq_card_iff_nodup.mp hcard)

variable {self : Participants}

theorem valid_of_validate (hok : self.validate = .ok ()) : self.Valid := by
  simp only [validate, bind_eq_ok, require_eq_ok, exists_const] at hok
  obtain ⟨hbelow, hids, haccounts⟩ := hok
  refine ⟨hbelow, nodup_of_card ?_, nodup_of_card ?_⟩
  · rw [hids, List.length_map, len]
  · rw [haccounts, List.length_map, len]

variable {id : ParticipantId}

/-- An id belongs to one account. -/
theorem Valid.account_unique (hvalid : self.Valid) {first second} (hfirst : self.Maps id first)
    (hsecond : self.Maps id second) : first = second := by
  obtain ⟨_, hentry, hid, rfl⟩ := hfirst
  obtain ⟨_, hother, hotherId, rfl⟩ := hsecond
  have hsame := List.inj_on_of_nodup_map hvalid.ids hentry hother (hid.trans hotherId.symm)
  rw [hsame]

variable {account : AccountId}

/-- An account has one id. -/
theorem Valid.id_unique (hvalid : self.Valid) {first second} (hfirst : self.Maps first account)
    (hsecond : self.Maps second account) : first = second := by
  obtain ⟨_, hentry, rfl, haccount⟩ := hfirst
  obtain ⟨_, hother, rfl, hotherAccount⟩ := hsecond
  have hsame := List.inj_on_of_nodup_map hvalid.accounts hentry hother
    (haccount.trans hotherAccount.symm)
  rw [hsame]

theorem Valid.id_lt_nextId (hvalid : self.Valid) (hmaps : self.Maps id account) :
    id < self.nextId := by
  obtain ⟨entry, hentry, rfl, -⟩ := hmaps
  exact hvalid.below entry hentry

/-- An authenticated id belongs to the signer. -/
theorem maps_of_authenticated {env participants participant}
    (hok : authenticatedParticipantId env participants = .ok participant) :
    participants.Maps participant env.signerAccountId := by
  simp only [authenticatedParticipantId, okOr_eq_ok, Option.map_eq_some_iff] at hok
  obtain ⟨entry, hfound, hid⟩ := hok
  have hsigner := List.find?_some hfound
  exact ⟨entry, List.mem_of_find?_eq_some hfound, hid, eq_of_beq hsigner⟩

/-- When as many ids have voted as there are participants, all have voted, and each id belongs to
one account. -/
theorem all_voted_of_card {participants : Participants} {voters : Finset ParticipantId}
    (hvoters : ∀ voter ∈ voters, ∃ account, participants.Maps voter account)
    (hcard : voters.card = participants.len) {entry : ParticipantEntry}
    (hentry : entry ∈ participants.participants) :
    entry.2.1 ∈ voters ∧ ∀ account, participants.Maps entry.2.1 account → account = entry.1 := by
  let ids := participants.participants.map fun entry ↦ entry.2.1
  have hsubset : voters ⊆ ids.toFinset := by
    intro voter hvoter
    obtain ⟨_, other, hother, hid, -⟩ := hvoters voter hvoter
    exact List.mem_toFinset.mpr (List.mem_map.mpr ⟨other, hother, hid⟩)
  have hlength : ids.length = voters.card := by
    rw [hcard, List.length_map, len]
  have hall : voters = ids.toFinset :=
    Finset.eq_of_subset_of_card_le hsubset ((List.toFinset_card_le ids).trans hlength.le)
  have hnodup : ids.Nodup := nodup_of_card (by rw [← hall, hlength])
  refine ⟨?_, ?_⟩
  · rw [hall, List.mem_toFinset]
    exact List.mem_map_of_mem hentry
  · rintro _ ⟨_, hother, hid, rfl⟩
    rw [List.inj_on_of_nodup_map hnodup hother hentry hid]

/-- Later participants: accounts that were there before keep their ids, new ones are numbered from
`nextId` on. -/
structure Follows (earlier later : Participants) : Prop where
  nextId : earlier.nextId ≤ later.nextId
  maps : ∀ id account, later.Maps id account → earlier.Maps id account ∨ earlier.nextId ≤ id

theorem Follows.refl (self : Participants) : Follows self self where
  nextId := le_refl _
  maps := fun _ _ hmaps ↦ .inl hmaps

/-- Among later participants an id that was taken belongs to the account it was taken by. -/
theorem Follows.account_unique {earlier later} (hfollows : Follows earlier later)
    (hvalid : earlier.Valid) {first second} (hfirst : earlier.Maps id first)
    (hsecond : later.Maps id second) : second = first := by
  rcases hfollows.maps id second hsecond with hearlier | hnew
  · exact hvalid.account_unique hearlier hfirst
  · have htaken := hvalid.id_lt_nextId hfirst
    lia

theorem maps_iff {members : Participants} :
    members.Maps id account ↔
      (account, id) ∈ members.participants.map fun entry ↦ (entry.1, entry.2.1) := by
  simp only [Maps, List.mem_map, Prod.mk.injEq, and_comm]

/-- Participants with the same accounts under the same ids. -/
structure SameIds (before after : Participants) : Prop where
  nextId : after.nextId = before.nextId
  accounts : after.participants.map (fun entry ↦ (entry.1, entry.2.1)) =
    before.participants.map fun entry ↦ (entry.1, entry.2.1)

variable {before after : Participants}

theorem SameIds.follows (hsame : SameIds before after) : Follows before after where
  nextId := hsame.nextId.ge
  maps := by
    intro _ _ hmaps
    rw [maps_iff, hsame.accounts, ← maps_iff] at hmaps
    exact .inl hmaps

theorem SameIds.valid (hsame : SameIds before after) (hvalid : before.Valid) : after.Valid := by
  have hids := congrArg (List.map Prod.snd) hsame.accounts
  have haccounts := congrArg (List.map Prod.fst) hsame.accounts
  simp only [List.map_map, Function.comp_def] at hids haccounts
  refine ⟨?_, hids ▸ hvalid.ids, haccounts ▸ hvalid.accounts⟩
  intro entry hentry
  have hmaps : after.Maps entry.2.1 entry.1 := ⟨entry, hentry, rfl, rfl⟩
  rw [maps_iff, hsame.accounts, ← maps_iff] at hmaps
  rw [hsame.nextId]
  exact hvalid.id_lt_nextId hmaps

end Participants

/-! ### Admissible proposals -/

namespace ThresholdParameters

/-- What the loop over the proposed participants establishes. -/
theorem scanProposed_eq_ok {oldById oldByAcc scan result entries}
    (hok : scanProposed oldById oldByAcc scan entries = .ok result) :
    result.newMinId ≤ scan.newMinId ∧ scan.newMaxId ≤ result.newMaxId ∧
      result.nOld = scan.nOld + entries.countP (fun entry ↦ oldByAcc[entry.1]?.isSome) ∧
      ∀ entry ∈ entries, oldByAcc[entry.1]? = some entry.2 ∨ oldByAcc[entry.1]? = none ∧
        result.newMinId ≤ entry.2.1 ∧ entry.2.1 ≤ result.newMaxId := by
  induction entries generalizing scan with
  | nil =>
    cases hok
    simp
  | cons first _ ih =>
    rcases first with ⟨account, id, info⟩
    unfold scanProposed at hok
    cases hold : oldByAcc[account]? with
    | some =>
      simp only [hold, bind_eq_ok, require_eq_ok, exists_const] at hok
      obtain ⟨hid, hinfo, hrest⟩ := hok
      obtain ⟨hmin, hmax, hcount, hentries⟩ := ih hrest
      refine ⟨hmin, hmax, ?_, List.forall_mem_cons.mpr ⟨.inl ?_, hentries⟩⟩
      · rw [hcount, List.countP_cons_of_pos (by simp [hold])]
        lia
      · rw [hold, hid, hinfo]
    | none =>
      simp only [hold, bind_eq_ok, require_eq_ok, exists_const] at hok
      obtain ⟨-, hrest⟩ := hok
      obtain ⟨hmin, hmax, hcount, hentries⟩ := ih hrest
      simp only [le_min_iff, max_le_iff] at hmin hmax
      refine ⟨hmin.1, hmax.1, ?_, List.forall_mem_cons.mpr ⟨.inr ?_, hentries⟩⟩
      · rw [hcount, List.countP_cons_of_neg (by simp [hold])]
      · exact ⟨hold, hmin.2, hmax.2⟩

/-- What an accepted proposal looks like from the parameters it is validated against. -/
structure Admits (current proposal : ThresholdParameters) : Prop where
  valid : proposal.participants.Valid
  threshold : proposal.threshold ≤ proposal.participants.len
  entries : ∀ entry ∈ proposal.participants.participants,
    entry ∈ current.participants.participants ∨
      current.participants.isParticipantGivenAccountId entry.1 = false ∧
        current.participants.nextId ≤ entry.2.1
  nextId : (∃ entry ∈ proposal.participants.participants,
      current.participants.isParticipantGivenAccountId entry.1 = false) →
    current.participants.nextId ≤ proposal.participants.nextId

variable {members : Participants} {entry : ParticipantEntry}

theorem isParticipant_of_mem (hentry : entry ∈ members.participants) :
    members.isParticipantGivenAccountId entry.1 = true :=
  List.any_eq_true.mpr ⟨entry, hentry, by simp⟩

theorem not_isParticipant_of_forall_ne {members : Participants} {account : AccountId}
    (hne : ∀ entry ∈ members.participants, entry.1 ≠ account) :
    members.isParticipantGivenAccountId account = false := by
  simpa [Participants.isParticipantGivenAccountId] using
    fun first id info hentry ↦ hne (first, id, info) hentry

/-- The map by account of the participants, as the loop before the scan fills it. -/
def byAccount (members : Participants) : TreeMap AccountId (ParticipantId × ParticipantInfo) :=
  insertAll (fun entry ↦ entry.1) (fun entry ↦ entry.2) members.participants ∅

theorem mem_of_byAccount (hfound : (byAccount members)[entry.1]? = some entry.2) :
    entry ∈ members.participants := by
  rcases getElem?_insertAll_eq_some hfound with ⟨item, hitem, haccount, hrest⟩ | hempty
  · have hsame : item = entry := Prod.ext haccount hrest
    exact hsame ▸ hitem
  · simp at hempty

variable {current proposal : ThresholdParameters}

theorem admits_of_validateIncomingProposal
    (hok : current.validateIncomingProposal proposal = .ok ()) : current.Admits proposal := by
  simp only [validateIncomingProposal, validate, validateThreshold, bind_eq_ok, require_eq_ok,
    exists_const] at hok
  obtain ⟨_, ⟨⟨hthreshold, -⟩, hvalid⟩, scan, hscan, -, hnew⟩ := hok
  obtain ⟨-, -, hcount, hentries⟩ := scanProposed_eq_ok hscan
  change ∀ entry ∈ proposal.participants.participants,
    (byAccount current.participants)[entry.1]? = some entry.2 ∨
      (byAccount current.participants)[entry.1]? = none ∧
        scan.newMinId ≤ entry.2.1 ∧ entry.2.1 ≤ scan.newMaxId at hentries
  -- a new account makes the number of new ones positive, and then the ids are tied to `nextId`
  have htied : ∀ entry ∈ proposal.participants.participants,
      (byAccount current.participants)[entry.1]? = none →
        scan.newMinId = current.participants.nextId ∧
          scan.newMaxId + 1 = proposal.participants.nextId := by
    intro entry hentry hnone
    have hpositive : 0 < proposal.participants.len - scan.nOld := by
      have hsplit := List.length_eq_countP_add_countP
        (fun entry : ParticipantEntry ↦ (byAccount current.participants)[entry.1]?.isSome)
        (l := proposal.participants.participants)
      have hadded : 0 < proposal.participants.participants.countP (fun entry ↦
          decide ¬ (byAccount current.participants)[entry.1]?.isSome = true) :=
        List.countP_pos_iff.mpr ⟨entry, hentry, by simp [hnone]⟩
      change scan.nOld = 0 + proposal.participants.participants.countP
        (fun entry ↦ (byAccount current.participants)[entry.1]?.isSome) at hcount
      rw [Participants.len]
      omega
    rw [if_pos hpositive] at hnew
    simp only [bind_eq_ok, require_eq_ok, exists_const] at hnew
    exact hnew.2
  refine ⟨Participants.valid_of_validate hvalid, hthreshold, ?_, ?_⟩
  · intro entry hentry
    rcases hentries entry hentry with hold | ⟨hnone, hmin, -⟩
    · exact .inl (mem_of_byAccount hold)
    · refine .inr ⟨not_isParticipant_of_forall_ne (getElem?_insertAll_eq_none hnone).1, ?_⟩
      rw [← (htied entry hentry hnone).1]
      exact hmin
  · rintro ⟨entry, hentry, hnewAccount⟩
    rcases hentries entry hentry with hold | ⟨hnone, hmin, hmax⟩
    · rw [isParticipant_of_mem (mem_of_byAccount hold)] at hnewAccount
      cases hnewAccount
    · obtain ⟨_, _⟩ := htied entry hentry hnone
      lia

/-- An accepted proposal keeps at least `threshold` of the participants, under their ids. -/
theorem threshold_le_kept_of_validateIncomingProposal
    (hok : current.validateIncomingProposal proposal = .ok ()) :
    current.threshold ≤ (proposal.participants.participants.filter fun entry ↦
      decide (entry ∈ current.participants.participants)).length := by
  simp only [validateIncomingProposal, bind_eq_ok, require_eq_ok, exists_const] at hok
  obtain ⟨_, -, scan, hscan, _, -⟩ := hok
  obtain ⟨-, -, hcount, hentries⟩ := scanProposed_eq_ok hscan
  have hkept : ∀ entry ∈ proposal.participants.participants,
      (byAccount current.participants)[entry.1]?.isSome = true →
        decide (entry ∈ current.participants.participants) = true := by
    intro entry hentry hsome
    rcases hentries entry hentry with hold | ⟨hnone, -⟩
    · exact decide_eq_true (mem_of_byAccount hold)
    · change (byAccount current.participants)[entry.1]? = none at hnone
      rw [hnone] at hsome
      cases hsome
  have hle := List.countP_mono_left hkept
  rw [zero_add] at hcount
  change scan.nOld = proposal.participants.participants.countP
    (fun entry ↦ (byAccount current.participants)[entry.1]?.isSome) at hcount
  rw [← List.countP_eq_length_filter]
  omega

/-- A proposal that does not lower `nextId` is followed by later participants only. -/
theorem Admits.follows (hadmits : current.Admits proposal)
    (hkeeps : (∀ entry ∈ proposal.participants.participants,
        current.participants.isParticipantGivenAccountId entry.1 = true) →
      current.participants.nextId ≤ proposal.participants.nextId) :
    Participants.Follows current.participants proposal.participants where
  nextId := by
    by_cases hadds : ∃ entry ∈ proposal.participants.participants,
        current.participants.isParticipantGivenAccountId entry.1 = false
    · exact hadmits.nextId hadds
    · refine hkeeps fun entry hentry ↦ ?_
      rw [← Bool.not_eq_false]
      exact fun hnew ↦ hadds ⟨entry, hentry, hnew⟩
  maps := by
    rintro _ _ ⟨entry, hentry, rfl, rfl⟩
    rcases hadmits.entries entry hentry with hold | ⟨-, hnew⟩
    · exact .inl ⟨entry, hold, rfl, rfl⟩
    · exact .inr hnew

/-- Replacing the info of a participant leaves every id with its account. -/
theorem updateInfo_eq_ok {updated account info}
    (hok : current.updateInfo account info = .ok updated) :
    updated.threshold = current.threshold ∧
      Participants.SameIds current.participants updated.participants := by
  simp only [updateInfo, Participants.updateInfo, bind_eq_ok, pure_eq, ok.injEq] at hok
  obtain ⟨_, ⟨entries, hentries, rfl⟩, rfl⟩ := hok
  refine ⟨rfl, rfl, ?_⟩
  change entries.map _ = _
  generalize current.participants.participants = before at hentries
  induction before generalizing entries with
  | nil => simp [Participants.updateEntries] at hentries
  | cons _ _ ih =>
    unfold Participants.updateEntries at hentries
    split_ifs at hentries with hfirst
    · cases hentries
      simp
    · simp only [bind_eq_ok, pure_eq, ok.injEq] at hentries
      obtain ⟨updatedRest, hrest, rfl⟩ := hentries
      rw [List.map_cons, List.map_cons, ih updatedRest hrest]

end ThresholdParameters

/-! ### Steps -/

namespace ProtocolContractState

variable (state : ProtocolContractState)

/-- The participants are valid, and those of a resharing follow those in force. -/
def IdsInOrder : Prop :=
  ∀ current, state.thresholdParameters = some current → current.participants.Valid ∧
    ∀ prospective, state.prospectiveParameters = some prospective →
      prospective.participants.Valid ∧
        Participants.Follows current.participants prospective.participants

/-- The participants in force later follow those in force before. -/
def ParticipantsFollow (before after : ProtocolContractState) : Prop :=
  ∀ current, before.thresholdParameters = some current →
    ∃ later, after.thresholdParameters = some later ∧
      Participants.Follows current.participants later.participants

/-- A proposal without new accounts does not lower `nextId`. -/
def KeepsNextId (method : Method) : Prop :=
  match state.thresholdParameters, method with
  | some current, .voteNewParameters _ proposal =>
      (∀ entry ∈ proposal.participants.participants,
          current.participants.isParticipantGivenAccountId entry.1 = true) →
        current.participants.nextId ≤ proposal.participants.nextId
  | _, _ => True

instance (state : ProtocolContractState) (method : Method) :
    Decidable (state.KeepsNextId method) := by
  unfold KeepsNextId
  split <;> infer_instance

/-- The parameters in force, and those being reshared to. -/
def Accepted (parameters : ThresholdParameters) : Prop :=
  state.thresholdParameters = some parameters ∨ state.prospectiveParameters = some parameters

/-- Besides, a resharing does not give up the numbering of its proposal: a proposal in its place
numbers other new accounts from there on, and it is not cancelled once it has raised `nextId`. -/
def KeepsNumbering (method : Method) : Prop :=
  state.KeepsNextId method ∧
    match state.thresholdParameters, state.prospectiveParameters, method with
    | some current, some prospective, .voteNewParameters _ proposal =>
        prospective.participants.nextId ≤ proposal.participants.nextId ∧
          ∀ entry ∈ proposal.participants.participants,
            current.participants.isParticipantGivenAccountId entry.1 = true ∨
              prospective.participants.Maps entry.2.1 entry.1 ∨
              prospective.participants.nextId ≤ entry.2.1
    | some current, some prospective, .voteCancelResharing =>
        prospective.participants.nextId ≤ current.participants.nextId
    | _, _, _ => True

instance (members : Participants) (id : ParticipantId) (account : AccountId) :
    Decidable (members.Maps id account) :=
  inferInstanceAs (Decidable (∃ entry ∈ members.participants, entry.2.1 = id ∧ entry.1 = account))

instance (state : ProtocolContractState) (method : Method) :
    Decidable (state.KeepsNumbering method) := by
  unfold KeepsNumbering
  refine @instDecidableAnd _ _ _ ?_
  split <;> infer_instance

theorem KeepsNextId.follows {state : ProtocolContractState} {method : Method}
    (hkeeps : state.KeepsNextId method) {current proposal : ThresholdParameters}
    (hcurrent : state.thresholdParameters = some current)
    (hproposes : method.Proposes current proposal)
    (hvalid : current.validateIncomingProposal proposal = .ok ()) :
    proposal.participants.Valid ∧
      Participants.Follows current.participants proposal.participants := by
  have hadmits := ThresholdParameters.admits_of_validateIncomingProposal hvalid
  refine ⟨hadmits.valid, hadmits.follows ?_⟩
  cases method with
  | voteNewParameters _ voted =>
    obtain rfl : proposal = voted := hproposes
    simpa [KeepsNextId, hcurrent] using hkeeps
  | verifyTee => exact fun _ ↦ hproposes.2.1.ge
  | _ => exact hproposes.elim

/-- Participants that follow the current ones replace them. -/
theorem participantsFollow_of_settled {before after current next}
    (hbefore : before.thresholdParameters = some current)
    (hafter : after.thresholdParameters = some next) (hnone : after.prospectiveParameters = none)
    (hnext : next.participants.Valid ∧ Participants.Follows current.participants next.participants)
    :
    after.IdsInOrder ∧ ParticipantsFollow before after := by
  constructor
  · intro later hlater
    obtain rfl : next = later := Option.some_inj.mp (hafter.symm.trans hlater)
    exact ⟨hnext.1, fun prospective hprospective ↦ by cases hnone.symm.trans hprospective⟩
  · intro earlier hearlier
    obtain rfl : current = earlier := Option.some_inj.mp (hbefore.symm.trans hearlier)
    exact ⟨next, hafter, hnext.2⟩

/-- What a call that keeps `nextId` does to the participants. -/
theorem participantsFollow_of_change {method before after}
    (hchange : ParametersChange method before after) (horder : before.IdsInOrder)
    (hkeeps : before.KeepsNextId method) : after.IdsInOrder ∧ ParticipantsFollow before after := by
  cases hchange with
  | kept hcurrent hprospective =>
    constructor
    · intro current hafter
      rw [hcurrent] at hafter
      refine ⟨(horder current hafter).1, fun prospective hafterProspective ↦ ?_⟩
      rcases hprospective with hsame | ⟨hnone, -⟩
      · exact (horder current hafter).2 prospective (hsame ▸ hafterProspective)
      · rw [hnone] at hafterProspective
        cases hafterProspective
    · intro current hbefore
      exact ⟨current, hcurrent.trans hbefore, .refl _⟩
  | proposed current proposal hproposes hvalid hbefore hafter hprospective =>
    have hproposal := hkeeps.follows hbefore hproposes hvalid
    constructor
    · intro later hlater
      obtain rfl : current = later := Option.some_inj.mp (hafter.symm.trans hlater)
      refine ⟨(horder current hbefore).1, fun prospective hafterProspective ↦ ?_⟩
      obtain rfl : proposal = prospective :=
        Option.some_inj.mp (hprospective.symm.trans hafterProspective)
      exact hproposal
    · intro earlier hearlier
      exact ⟨earlier, hafter.trans (hbefore.symm.trans hearlier), .refl _⟩
  | adopted _ _ hproposes hvalid hbefore hafter hnone =>
    exact participantsFollow_of_settled hbefore hafter hnone
      (hkeeps.follows hbefore hproposes hvalid)
  | completed current proposal hbefore hresharing hafter hnone =>
    exact participantsFollow_of_settled hbefore hafter hnone
      ((horder current hbefore).2 proposal hresharing)
  | migrated current _ _ _ hupdated hbefore hafter hnone =>
    have hsame := (ThresholdParameters.updateInfo_eq_ok hupdated).2
    exact participantsFollow_of_settled hbefore hafter hnone
      ⟨hsame.valid (horder current hbefore).1, hsame.follows⟩

/-- The numbering of earlier participants stands: no accepted set gives one of their ids to another
account, and new accounts are numbered above them. -/
structure Stands (earlier : Participants) (state : ProtocolContractState) : Prop where
  agrees : ∀ parameters, state.Accepted parameters → ∀ id first second,
    earlier.Maps id first → parameters.participants.Maps id second → second = first
  nextId : ∀ current, state.thresholdParameters = some current →
    earlier.nextId ≤ (state.prospectiveParameters.getD current).participants.nextId

/-- The numbering stands with parameters in force that agree with it, and no resharing. -/
theorem Stands.settled {earlier state parameters}
    (hparameters : state.thresholdParameters = some parameters)
    (hnone : state.prospectiveParameters = none)
    (hnextId : earlier.nextId ≤ parameters.participants.nextId)
    (hagrees : ∀ id first second, earlier.Maps id first →
      parameters.participants.Maps id second → second = first) : Stands earlier state := by
  have hunique : ∀ other, state.thresholdParameters = some other → parameters = other :=
    fun _ hother ↦ Option.some_inj.mp (hparameters.symm.trans hother)
  refine ⟨?_, fun other hother ↦ ?_⟩
  · rintro other (hother | hother)
    · obtain rfl := hunique other hother
      exact hagrees
    · cases hnone.symm.trans hother
  · obtain rfl := hunique other hother
    rwa [hnone]

/-- The numbering of every accepted set stands. -/
theorem IdsInOrder.stands {state} (horder : state.IdsInOrder) {current earlier}
    (hcurrent : state.thresholdParameters = some current) (hearlier : state.Accepted earlier) :
    earlier.participants.Valid ∧ Stands earlier.participants state := by
  obtain ⟨hvalid, hfollows⟩ := horder current hcurrent
  have hcurrent' : ∀ parameters, state.thresholdParameters = some parameters →
      current = parameters := fun _ hparameters ↦
    Option.some_inj.mp (hcurrent.symm.trans hparameters)
  rcases hearlier with hearlier | hearlier
  · obtain rfl := hcurrent' earlier hearlier
    refine ⟨hvalid, ⟨?_, fun other hother ↦ ?_⟩⟩
    · rintro parameters (hparameters | hparameters) id first second hfirst hsecond
      · obtain rfl := hcurrent' parameters hparameters
        exact hvalid.account_unique hsecond hfirst
      · exact (hfollows parameters hparameters).2.account_unique hvalid hfirst hsecond
    · obtain rfl := hcurrent' other hother
      cases hprospective : state.prospectiveParameters with
      | none => exact le_rfl
      | some prospective => exact (hfollows prospective hprospective).2.nextId
  · obtain ⟨hvalidEarlier, hfollowsEarlier⟩ := hfollows earlier hearlier
    refine ⟨hvalidEarlier, ⟨?_, fun other hother ↦ ?_⟩⟩
    · rintro parameters (hparameters | hparameters) id first second hfirst hsecond
      · obtain rfl := hcurrent' parameters hparameters
        exact (hfollowsEarlier.account_unique hvalid hsecond hfirst).symm
      · obtain rfl : earlier = parameters := Option.some_inj.mp (hearlier.symm.trans hparameters)
        exact hvalidEarlier.account_unique hsecond hfirst
    · rw [hearlier]
      exact le_rfl

section

variable {method : Method} {before after : ProtocolContractState} {earlier : Participants}
  (hstands : Stands earlier before) (hvalid : earlier.Valid)
  (hkeeps : before.KeepsNumbering method)
include hstands hvalid hkeeps

/-- A proposal that keeps the numbering gives none of the earlier ids to another account. -/
theorem Stands.proposal {current proposal} (hcurrent : before.thresholdParameters = some current)
    (hproposes : method.Proposes current proposal)
    (hok : current.validateIncomingProposal proposal = .ok ())
    (hvoted : before.prospectiveParameters = none ∨
      ∃ epochId, method = .voteNewParameters epochId proposal) :
    earlier.nextId ≤ proposal.participants.nextId ∧ ∀ id first second,
      earlier.Maps id first → proposal.participants.Maps id second → second = first := by
  have hfollows := (hkeeps.1.follows hcurrent hproposes hok).2
  have hnextId := hstands.nextId current hcurrent
  cases hprospective : before.prospectiveParameters with
  | none =>
    rw [hprospective, Option.getD_none] at hnextId
    refine ⟨hnextId.trans hfollows.nextId, fun id first second hfirst hsecond ↦ ?_⟩
    rcases hfollows.maps id second hsecond with hold | hnew
    · exact hstands.agrees current (.inl hcurrent) id first second hfirst hold
    · have hlt := hvalid.id_lt_nextId hfirst
      lia
  | some prospective =>
    rw [hprospective, Option.getD_some] at hnextId
    obtain ⟨epochId, rfl⟩ := hvoted.resolve_left (by simp [hprospective])
    have hnumbering := hkeeps.2
    simp only [hcurrent, hprospective] at hnumbering
    refine ⟨hnextId.trans hnumbering.1, fun id first second hfirst hsecond ↦ ?_⟩
    have hlt := hvalid.id_lt_nextId hfirst
    obtain ⟨entry, hentry, rfl, rfl⟩ := hsecond
    rcases hnumbering.2 entry hentry with hold | hsame | hnew
    · -- an account that is in force keeps its id
      rcases (ThresholdParameters.admits_of_validateIncomingProposal hok).entries entry hentry with
        hmem | ⟨hfalse, -⟩
      · exact hstands.agrees current (.inl hcurrent) _ first _ hfirst ⟨entry, hmem, rfl, rfl⟩
      · rw [hold] at hfalse
        cases hfalse
    · exact hstands.agrees prospective (.inr hprospective) _ first _ hfirst hsame
    · lia

/-- What a call that keeps the numbering leaves standing. -/
theorem Stands.change (hchange : ParametersChange method before after) :
    Stands earlier after := by
  cases hchange with
  | kept hcurrent hprospective =>
    rcases hprospective with hsame | ⟨hnone, rfl⟩
    · refine ⟨fun parameters haccepted ↦ hstands.agrees parameters ?_, fun current hafter ↦ ?_⟩
      · rwa [Accepted, hcurrent, hsame] at haccepted
      · rw [hsame]
        exact hstands.nextId current (hcurrent ▸ hafter)
    · refine ⟨fun parameters haccepted ↦ hstands.agrees parameters ?_, fun current hafter ↦ ?_⟩
      · rw [Accepted, hcurrent, hnone] at haccepted
        exact .inl (haccepted.resolve_right nofun)
      · -- a resharing that has raised `nextId` is not cancelled
        rw [hcurrent] at hafter
        have hnextId := hstands.nextId current hafter
        have hnumbering := hkeeps.2
        rw [hnone, Option.getD_none]
        cases hprospective : before.prospectiveParameters with
        | none => rwa [hprospective] at hnextId
        | some =>
          simp only [hafter, hprospective] at hnumbering
          rw [hprospective] at hnextId
          exact hnextId.trans hnumbering
  | proposed current proposal hproposes hok hbefore hafter hprospective hvoted =>
    obtain ⟨hnextId, hagrees⟩ := hstands.proposal hvalid hkeeps hbefore hproposes hok hvoted
    refine ⟨?_, fun _ _ ↦ by rwa [hprospective]⟩
    rintro parameters (hparameters | hparameters)
    · exact hstands.agrees parameters (.inl (hbefore.trans (hafter.symm.trans hparameters)))
    · obtain rfl : proposal = parameters :=
        Option.some_inj.mp (hprospective.symm.trans hparameters)
      exact hagrees
  | adopted current proposal hproposes hok hbefore hafter hnone hrunning =>
    obtain ⟨hnextId, hagrees⟩ :=
      hstands.proposal hvalid hkeeps hbefore hproposes hok (.inl hrunning)
    exact Stands.settled hafter hnone hnextId hagrees
  | completed current proposal hbefore hresharing hafter hnone =>
    have hnextId := hstands.nextId current hbefore
    rw [hresharing] at hnextId
    exact Stands.settled hafter hnone hnextId (hstands.agrees proposal (.inr hresharing))
  | migrated current updated _ _ hupdated hbefore hafter hnone hrunning =>
    have hsame := (ThresholdParameters.updateInfo_eq_ok hupdated).2
    have hnextId := hstands.nextId current hbefore
    rw [hrunning, Option.getD_none, ← hsame.nextId] at hnextId
    refine Stands.settled hafter hnone hnextId fun id first second hfirst hsecond ↦ ?_
    rw [Participants.maps_iff, hsame.accounts, ← Participants.maps_iff] at hsecond
    exact hstands.agrees current (.inl hbefore) id first second hfirst hsecond

end

end ProtocolContractState

/-! ### Runs -/

namespace MpcContract

open ProtocolContractState

/-- An accepted parameter set: in force, or being reshared to. -/
def Accepted (contract : MpcContract) (parameters : ThresholdParameters) : Prop :=
  contract.protocolState.Accepted parameters

/-- The condition on a step. -/
def KeepsNumbering (contract : MpcContract) (call : Call) : Prop :=
  contract.protocolState.KeepsNumbering call.method

instance (contract : MpcContract) (call : Call) : Decidable (contract.KeepsNumbering call) :=
  inferInstanceAs (Decidable (contract.protocolState.KeepsNumbering call.method))

variable {contract : MpcContract}

theorem deployed_idsInOrder (hdeployed : Deployed contract) :
    contract.protocolState.IdsInOrder := by
  obtain ⟨_, _, parameters, hstate, hvalid, -⟩ := deployed_cases hdeployed
  simp only [ThresholdParameters.validate, bind_eq_ok] at hvalid
  obtain ⟨⟨⟩, -, hmembers⟩ := hvalid
  rw [hstate]
  intro current hcurrent
  obtain rfl : parameters = current := Option.some_inj.mp hcurrent
  exact ⟨Participants.valid_of_validate hmembers, fun _ hnone ↦ absurd hnone (by simp
    [prospectiveParameters])⟩

/-- There are parameters in force, and the ids are in order. -/
def Numbered (contract : MpcContract) : Prop :=
  contract.protocolState.IdsInOrder ∧
    ∃ current, contract.protocolState.thresholdParameters = some current

theorem deployed_numbered (hdeployed : Deployed contract) : contract.Numbered := by
  obtain ⟨_, _, parameters, hstate, -⟩ := deployed_cases hdeployed
  exact ⟨deployed_idsInOrder hdeployed, parameters, by rw [hstate]; rfl⟩

theorem Numbered.apply {call} (hnumbered : contract.Numbered)
    (hkeeps : contract.KeepsNumbering call) : (contract.apply call).Numbered := by
  obtain ⟨horder, current, hcurrent⟩ := hnumbered
  have hchange := (contract.stateChange_apply call).parametersChange
  obtain ⟨horderAfter, hfollow⟩ := participantsFollow_of_change hchange horder hkeeps.1
  obtain ⟨later, hlater, -⟩ := hfollow current hcurrent
  exact ⟨horderAfter, later, hlater⟩

/-- Along a run in which no step gives up a numbering, an id that has belonged to an account in an
accepted parameter set belongs to no other account in any parameter set accepted later. -/
theorem participantIds_never_reassigned {contract : MpcContract} (hdeployed : Deployed contract)
    {calls more : List Call} (hmeet : StepsMeet apply KeepsNumbering contract (calls ++ more))
    {earlier later : ThresholdParameters}
    (hearlier : (run apply contract calls).Accepted earlier)
    (hlater : (run apply contract (calls ++ more)).Accepted later)
    {id : ParticipantId} {first second : AccountId} (hfirst : earlier.participants.Maps id first)
    (hsecond : later.participants.Maps id second) : second = first := by
  rw [stepsMeet_append] at hmeet
  rw [run_append] at hlater
  obtain ⟨horder, current, hcurrent⟩ :=
    hmeet.1.invariant (deployed_numbered hdeployed) fun _ _ hkeeps hnumbered ↦
      hnumbered.apply hkeeps
  obtain ⟨hvalid, hstands⟩ := horder.stands hcurrent hearlier
  have hstandsLater : (fun contract : MpcContract ↦
      Stands earlier.participants contract.protocolState)
        (run apply (run apply contract calls) more) :=
    hmeet.2.invariant hstands fun contract call hkeeps hstands ↦
      Stands.change hstands hvalid hkeeps (contract.stateChange_apply call).parametersChange
  exact hstandsLater.agrees later hlater id first second hfirst hsecond

namespace ThreeAccounts

/-- The entry of an account whose node has its name. -/
def entry (account : AccountId) (id : ParticipantId) : ParticipantEntry :=
  (account, id, { url := account, signPk := account })

variable (nextId : ParticipantId)

def parametersOf (participants : List ParticipantEntry) : ThresholdParameters where
  participants := { nextId, participants }
  threshold := 2

/-- A network without keys. -/
def network : MpcContract where
  protocolState := .running (RunningContractState.new {} { epochId := 0, domains := [] }
    (parametersOf 3 [entry "alice" 0, entry "bob" 1, entry "carol" 2]) {})
  acceptRequests := true
  keyEventTimeoutBlocks := 10
  ongoingMigrations := ∅

theorem network_deployed : Deployed network :=
  .inl ⟨parametersOf 3 [entry "alice" 0, entry "bob" 1, entry "carol" 2], 10, rfl⟩

/-- The vote of an account for the parameters. -/
def voteFor (epochId : EpochId) (parameters : ThresholdParameters) (account : AccountId) :
    Call := TwoNodes.signedBy account (.voteNewParameters epochId parameters)

/-- Everyone but carol votes to continue without carol. -/
def removeCarol : List Call :=
  ["alice", "bob"].map (voteFor 1 (parametersOf nextId [entry "alice" 0, entry "bob" 1]))

/-- Dave joins under the given id. -/
def addDave (id : ParticipantId) : List Call :=
  ["alice", "bob", "dave"].map
    (voteFor 2 (parametersOf (id + 1) [entry "alice" 0, entry "bob" 1, entry "dave" id]))

end ThreeAccounts

open ThreeAccounts

/-- With `nextId` kept, dave gets an id that was never taken, and the others keep theirs. -/
theorem participantIds_never_reassigned_witness :
    StepsMeet apply KeepsNumbering network ([] ++ (removeCarol 3 ++ addDave 3)) ∧
      ∀ account, (parametersOf 4 [entry "alice" 0, entry "bob" 1, entry "dave" 3]).participants.Maps
        0 account → account = "alice" := by
  have hmeet : StepsMeet apply KeepsNumbering network ([] ++ (removeCarol 3 ++ addDave 3)) := by
    decide +kernel
  refine ⟨hmeet, fun account hmaps ↦ ?_⟩
  exact participantIds_never_reassigned network_deployed hmeet (.inl rfl) (.inl (by rfl))
    ⟨entry "alice" 0, by decide, rfl, rfl⟩ hmaps

/-- Removing carol with a lower `nextId` is accepted, and then the id of carol goes to dave. -/
theorem id_of_removed_participant_reassigned :
    Deployed network ∧
      ∃ earlier later, network.protocolState.thresholdParameters = some earlier ∧
        (run apply network (removeCarol 2 ++ addDave 2)).Accepted later ∧
        earlier.participants.Maps 2 "carol" ∧ later.participants.Maps 2 "dave" := by
  refine ⟨network_deployed, parametersOf 3 [entry "alice" 0, entry "bob" 1, entry "carol" 2],
    parametersOf 3 [entry "alice" 0, entry "bob" 1, entry "dave" 2], rfl, .inl ?_, ?_, ?_⟩
  · decide +kernel
  · exact ⟨entry "carol" 2, by decide, rfl, rfl⟩
  · exact ⟨entry "dave" 2, by decide, rfl, rfl⟩

end MpcContract

end NearMpc.Contract
