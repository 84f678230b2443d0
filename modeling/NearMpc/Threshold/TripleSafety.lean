import NearMpc.Threshold.TripleGeneration

/-!
# Triple generation without panics

What a participant of triple generation receives is read by index, without a look at its length. A
list of another participant that is too short ends the participant with a panic, in the first round
already. Every other step returns an error for what it cannot use: a participant whose peers send
lists that are long enough waits, returns its triples or returns an error, whatever they contain
and in whichever order they arrive.

One lemma for each step that reads a received list says which length it needs; the rules for
sessions put them together.
-/

set_option autoImplicit false

namespace NearMpc.Threshold

open Library Library.Outcome TriplePayload

variable {F G : Type} {n : ℕ}

/-! ### Lengths of what is decoded -/

namespace TriplePayload

variable {payload : TriplePayload F G}

theorem length_of_mapM {First Second : Type} {transform : First → Option Second}
    {values : List First} {results : List Second} (hmap : values.mapM transform = some results) :
    results.length = values.length := by
  induction values generalizing results with
  | nil =>
    simp only [List.mapM_nil, Option.pure_def, Option.some.injEq] at hmap
    subst hmap
    rfl
  | cons _ _ ih =>
    simp only [List.mapM_cons, Option.bind_eq_bind, Option.bind_eq_some_iff, Option.pure_def,
      Option.some.injEq] at hmap
    obtain ⟨_, -, _, hothers, rfl⟩ := hmap
    rw [List.length_cons, List.length_cons, ih hothers]

theorem length_of_decodeCommitments {list} (hdecoded : decodeCommitments payload = some list)
    (hpayload : payload.IndexedListsAtLeast n) : n ≤ list.length := by
  cases payload <;> cases hdecoded
  exact hpayload

theorem length_of_decodeShares {shares} (hdecoded : decodeShares payload = some shares)
    (hpayload : payload.IndexedListsAtLeast n) : n ≤ shares.1.length ∧ n ≤ shares.2.length := by
  cases payload <;> cases hdecoded
  exact hpayload

theorem length_of_decodeCShares {shares} (hdecoded : decodeCShares payload = some shares)
    (hpayload : payload.IndexedListsAtLeast n) : n ≤ shares.length := by
  cases payload <;> cases hdecoded
  exact hpayload

variable [AddCommGroup G] [DecidableEq G]

theorem eq_of_nonIdentity {points checked : List G}
    (hpoints : nonIdentity points = some checked) : checked = points := by
  unfold nonIdentity at hpoints
  split_ifs at hpoints
  exact (Option.some.inj hpoints).symm

theorem length_of_decodeProducts {products : List G × List (Dlogeq.Proof F)}
    (hdecoded : decodeProducts payload = some products) (hpayload : payload.IndexedListsAtLeast n) :
    n ≤ products.1.length ∧ n ≤ products.2.length := by
  cases payload with
  | products =>
    obtain ⟨_, hchecked, rfl⟩ := Option.map_eq_some_iff.mp hdecoded
    rw [eq_of_nonIdentity hchecked]
    exact hpayload
  | _ => cases hdecoded

theorem length_of_decodeHatProducts {products : List G × List (Dlog.Proof F)}
    (hdecoded : decodeHatProducts payload = some products)
    (hpayload : payload.IndexedListsAtLeast n) : n ≤ products.1.length ∧ n ≤ products.2.length := by
  cases payload with
  | hatProducts =>
    obtain ⟨_, hchecked, rfl⟩ := Option.map_eq_some_iff.mp hdecoded
    rw [eq_of_nonIdentity hchecked]
    exact hpayload
  | _ => cases hdecoded

/-- The lists of the second round are long enough. -/
def PolynomialsAtLeast (n : ℕ) (message : PolynomialCommitmentsMessageMany F G) : Prop :=
  n ≤ message.bigE.length ∧ n ≤ message.bigF.length ∧ n ≤ message.bigL.length ∧
    n ≤ message.randomizers.length ∧ n ≤ message.phiProofs0.length ∧
    n ≤ message.phiProofs1.length

theorem length_of_decodePolynomials {message : PolynomialCommitmentsMessageMany F G}
    (hdecoded : decodePolynomials payload = some message)
    (hpayload : payload.IndexedListsAtLeast n) : PolynomialsAtLeast n message := by
  cases payload with
  | polynomials =>
    simp only [decodePolynomials, Option.bind_eq_bind, Option.bind_eq_some_iff, Option.pure_def,
      Option.some.injEq] at hdecoded
    obtain ⟨_, hbigE, _, hbigF, _, hbigL, rfl⟩ := hdecoded
    obtain ⟨hE, hF, hL, hrest⟩ := hpayload
    rw [← length_of_mapM hbigE] at hE
    rw [← length_of_mapM hbigF] at hF
    rw [← length_of_mapM hbigL] at hL
    exact ⟨hE, hF, hL, hrest⟩
  | _ => cases hdecoded

end TriplePayload

/-! ### Steps that read a received list -/

theorem received_ne_panicked {Value : Type} {values : List Value} (hlength : n ≤ values.length)
    (index : Fin n) : received values index ≠ .panicked := by
  have hindex : (index : ℕ) < values.length := lt_of_lt_of_le index.isLt hlength
  rw [received, List.getElem?_eq_getElem hindex]
  simp [unwrap]

namespace TripleSetup

theorem collectCommitments_ne_panicked {queue : List (Participant × TriplePayload F G)}
    (hqueue : ∀ entry ∈ queue, entry.2.IndexedListsAtLeast n)
    (all : Fin n → ParticipantMap Commitment) : collectCommitments queue all ≠ .panicked := by
  induction queue generalizing all with
  | nil =>
    unfold collectCommitments
    split_ifs <;> simp
  | cons _ _ ih =>
    rw [List.forall_mem_cons] at hqueue
    unfold collectCommitments
    split_ifs with hfull
    · simp
    rw [Ne, bind_eq_panicked, not_or]
    refine ⟨okOr_ne_panicked _ _, ?_⟩
    rintro ⟨_, hdecoded, hpanic⟩
    have hlength := length_of_decodeCommitments (okOr_eq_ok.mp hdecoded) hqueue.1
    rw [bind_eq_panicked] at hpanic
    rcases hpanic with hpanic | ⟨next, -, hpanic⟩
    · refine forEach_ne_panicked (fun index ↦ ?_) hpanic
      rw [Ne, bind_eq_panicked, not_or]
      exact ⟨received_ne_panicked hlength index, by simp⟩
    · exact ih hqueue.2 next hpanic

theorem requireVerified_ne_panicked (verified : Except ProtocolError Bool) (text : String) :
    requireVerified verified text ≠ .panicked := by
  simp [requireVerified, bind_eq_panicked]

theorem requireConfirmed_ne_panicked (confirmations : Fin n → HashOutput)
    (confirmed : List (Participant × List HashOutput)) :
    requireConfirmed confirmations confirmed ≠ .panicked := by
  induction confirmed with
  | nil => simp [requireConfirmed]
  | cons _ _ ih => simpa [requireConfirmed, bind_eq_panicked] using fun _ _ ↦ ih

/-- A round over what everyone sent panics only where one of its steps does. -/
theorem absorb_ne_panicked {Message State : Type}
    {step : Participant → Message → Fin n → State → Outcome ProtocolError State} {messages}
    (hstep : ∀ entry ∈ messages, ∀ index state, step entry.1 entry.2 index state ≠ .panicked)
    (start : Fin n → State) : absorb step start messages ≠ .panicked :=
  foldlM_ne_panicked (fun states entry hentry ↦
    forEach_ne_panicked fun index ↦ hstep entry hentry index (states index)) start

/-- Every list that is read by index is long enough. -/
def LongEnough (n : ℕ) (inbox : Inbox (TriplePayload F G)) : Prop :=
  inbox.All fun _ payload ↦ payload.IndexedListsAtLeast n

/-- A round that waits for everyone and adds what they sent. -/
theorem ensures_absorbRound {Message State Result : Type}
    {decode : TriplePayload F G → Option Message} {holds : Message → Prop}
    (hdecode : ∀ payload value, decode payload = some value →
      payload.IndexedListsAtLeast n → holds value)
    {step : Participant → Message → Fin n → State → Outcome ProtocolError State}
    (hstep : ∀ sender value index state, holds value → step sender value index state ≠ .panicked)
    (waitpoint : ℕ) (participants : ParticipantList) (me : Participant) (start : Fin n → State)
    {next : (Fin n → State) → Party (TriplePayload F G) Result}
    (hnext : ∀ states, (next states).Ensures (LongEnough n) fun _ ↦ True) :
    (recvFromOthers decode waitpoint participants me >>= fun messages ↦
      (Session.lift (absorb step start messages) >>= next)).Ensures (LongEnough n)
        fun _ ↦ True := by
  have hgathered : ∀ inbox : Inbox (TriplePayload F G), LongEnough n inbox →
      ∀ entry ∈ inbox (SharedChannel.header waitpoint), ∀ value,
        decode entry.2 = some value → holds value :=
    fun inbox hinbox entry hentry value hvalue ↦
      hdecode entry.2 value hvalue (hinbox _ entry hentry)
  refine (ensures_recvFromOthers decode waitpoint participants me hgathered).bind
    fun messages hmessages ↦ ?_
  have habsorb : absorb step start messages ≠ .panicked :=
    absorb_ne_panicked (fun entry hentry index state ↦
      hstep entry.1 entry.2 index state (hmessages entry hentry)) start
  exact (Session.Ensures.lift habsorb fun _ _ ↦ trivial).bind fun states _ ↦ hnext states

variable [Field F]

theorem absorbShares_ne_panicked (sender : Participant) {their : List F × List F}
    (hlengths : n ≤ their.1.length ∧ n ≤ their.2.length) (index : Fin n)
    (shares : F × F) : absorbShares sender their index shares ≠ .panicked := by
  simp [absorbShares, bind_eq_panicked, received_ne_panicked hlengths.1,
    received_ne_panicked hlengths.2]

theorem absorbCShares_ne_panicked (sender : Participant) {their : List F}
    (hlength : n ≤ their.length) (index : Fin n) (c : F) :
    absorbCShares sender their index c ≠ .panicked := by
  simp [absorbCShares, bind_eq_panicked, received_ne_panicked hlength]

variable [DecidableEq F] [AddCommGroup G] [Module F G] [DecidableEq G]
  (setup : TripleSetup n F G) (first : FirstRound n F G)

theorem absorbPolynomials_ne_panicked (sender : Participant)
    {their : PolynomialCommitmentsMessageMany F G}
    (hlengths : TriplePayload.PolynomialsAtLeast n their) (index : Fin n)
    (sums : PolynomialSums G) :
    setup.absorbPolynomials first sender their index sums ≠ .panicked := by
  obtain ⟨hE, hF, hL, hrandomizers, hproofs0, hproofs1⟩ := hlengths
  simp [absorbPolynomials, bind_eq_panicked, received_ne_panicked hE,
    received_ne_panicked hF, received_ne_panicked hL, received_ne_panicked hrandomizers,
    received_ne_panicked hproofs0, received_ne_panicked hproofs1, requireVerified_ne_panicked]

theorem absorbProducts_ne_panicked (sums : Fin n → PolynomialSums G) (sender : Participant)
    {their : List G × List (Dlogeq.Proof F)}
    (hlengths : n ≤ their.1.length ∧ n ≤ their.2.length) (index : Fin n) (bigC : G) :
    setup.absorbProducts first sums sender their index bigC ≠ .panicked := by
  simp [absorbProducts, bind_eq_panicked, received_ne_panicked hlengths.1,
    received_ne_panicked hlengths.2, requireVerified_ne_panicked]

theorem absorbHatProducts_ne_panicked (sender : Participant)
    {their : List G × List (Dlog.Proof F)}
    (hlengths : n ≤ their.1.length ∧ n ≤ their.2.length) (index : Fin n) (hatC : G) :
    setup.absorbHatProducts first sender their index hatC ≠ .panicked := by
  simp [absorbHatProducts, bind_eq_panicked, received_ne_panicked hlengths.1,
    received_ne_panicked hlengths.2, requireVerified_ne_panicked]

/-! ### Rounds -/

theorem ensures_parallelToMultiplication :
    (setup.parallelToMultiplication first).Ensures (LongEnough n) fun _ ↦ True := by
  unfold parallelToMultiplication
  refine (ensures_send _ _ _).bind fun _ _ ↦ ?_
  refine (Session.Ensures.liftExcept _).bind fun proofs _ ↦ ?_
  refine (ensures_send _ _ _).bind fun _ _ ↦ ?_
  refine (SharedChannel.ensures_sendEach _ _ _).bind fun _ _ ↦ ?_
  have hconfirmed : (recvFromOthers decodeConfirmations 1 setup.participants setup.me :
      Party (TriplePayload F G) _).Ensures (LongEnough n)
        fun gathered ↦ ∀ entry ∈ gathered, True :=
    ensures_recvFromOthers _ _ _ _ fun _ _ _ _ _ _ ↦ trivial
  refine hconfirmed.bind fun confirmed _ ↦ ?_
  refine (Session.Ensures.lift (requireConfirmed_ne_panicked _ _) fun _ _ ↦ trivial).bind
    fun _ _ ↦ ?_
  refine ensures_absorbRound (fun _ _ ↦ length_of_decodePolynomials)
    (fun sender _ index state hvalue ↦
      setup.absorbPolynomials_ne_panicked first sender hvalue index state) _ _ _ _ fun sums ↦ ?_
  refine ensures_absorbRound (fun _ _ ↦ length_of_decodeShares)
    (fun sender _ index state hvalue ↦ absorbShares_ne_panicked sender hvalue index state)
    _ _ _ _ fun shares ↦ ?_
  refine (Session.Ensures.liftExcept _).bind fun products _ ↦ ?_
  refine (ensures_send _ _ _).bind fun _ _ ↦ ?_
  refine ensures_absorbRound (fun _ _ ↦ length_of_decodeProducts)
    (fun sender _ index state hvalue ↦
      setup.absorbProducts_ne_panicked first sums sender hvalue index state) _ _ _ _ fun bigC ↦ ?_
  refine (Session.Ensures.liftExcept _).bind fun bigL _ ↦ ?_
  exact Session.Ensures.pure trivial

theorem ensures_lastRounds (l0 : Fin n → F) (outputs : Fin n → ParallelOutput F G) :
    (setup.lastRounds first l0 outputs).Ensures (LongEnough n) fun _ ↦ True := by
  unfold lastRounds
  refine (Session.Ensures.liftExcept _).bind fun proofs _ ↦ ?_
  refine (ensures_send _ _ _).bind fun _ _ ↦ ?_
  refine (Session.Ensures.liftExcept _).bind fun l _ ↦ ?_
  refine (SharedChannel.ensures_sendEach _ _ _).bind fun _ _ ↦ ?_
  refine ensures_absorbRound (fun _ _ ↦ length_of_decodeHatProducts)
    (fun sender _ index state hvalue ↦
      setup.absorbHatProducts_ne_panicked first sender hvalue index state) _ _ _ _ fun hatC ↦ ?_
  refine (Session.Ensures.liftExcept _).bind fun bigL _ ↦ ?_
  refine ensures_absorbRound (fun _ _ ↦ length_of_decodeCShares)
    (fun sender _ index state hvalue ↦ absorbCShares_ne_panicked sender hvalue index state)
    _ _ _ _ fun c ↦ ?_
  refine (Session.Ensures.liftExcept _).bind fun triples _ ↦ ?_
  exact Session.Ensures.pure trivial

theorem ensures_doGenerationMany (hn : 0 < n) (hmembers : 1 ≤ setup.participants.len) :
    setup.doGenerationMany.Ensures (LongEnough n) fun _ ↦ True := by
  unfold doGenerationMany
  have hbatch : (guardPanic (0 < n) : Outcome ProtocolError Unit) ≠ .panicked := by
    simp [guardPanic, hn]
  refine (Session.Ensures.lift hbatch fun _ _ ↦ trivial).bind fun _ _ ↦ ?_
  refine (Session.Ensures.liftExcept _).bind fun own _ ↦ ?_
  refine (ensures_send _ _ _).bind fun _ _ ↦ ?_
  have hcollect : (Session.read fun inbox ↦
      collectCommitments (inbox (SharedChannel.header 0)) fun index ↦
        (ParticipantMap.new setup.participants).put setup.me (own index).commitment :
      Party (TriplePayload F G) _).Ensures (LongEnough n) fun _ ↦ True :=
    .read fun inbox hinbox ↦
      ⟨collectCommitments_ne_panicked (hinbox _) _, fun _ _ ↦ trivial⟩
  refine hcollect.bind fun allCommitments _ ↦ ?_
  refine (Session.Ensures.tryJoin
    (ensures_multiplicationMany _ _ _ _ _ _ _ _ hmembers)
    (setup.ensures_parallelToMultiplication _)).bind fun results _ ↦ ?_
  exact setup.ensures_lastRounds _ _ _

end TripleSetup

/-! ### Runs -/

/-- What a participant does once its protocol has been constructed. -/
def OtBasedEcdsa.TripleProtocol.party {F G : Type} [Field F] [DecidableEq F]
    [AddCommGroup G] [Module F G] [DecidableEq G]
    (protocol : OtBasedEcdsa.TripleProtocol) (primitives : Primitives F G)
    (random : TripleRandomness n F) :
    Party (TriplePayload F G)
      (List (OtBasedEcdsa.TripleGenerationOutput F G)) :=
  TripleSetup.doGenerationMany
    { primitives
      participants := protocol.participants
      me := protocol.me
      threshold := protocol.threshold
      random }

theorem OtBasedEcdsa.participants_of_generateTripleMany
    {numTriples participants me threshold protocol}
    (hprotocol : generateTripleMany numTriples participants me threshold = .ok protocol) :
    2 ≤ protocol.participants.len := by
  rw [generateTripleMany, bind_eq_ok] at hprotocol
  obtain ⟨⟨list, _⟩, hvalidated, hprotocol⟩ := hprotocol
  rw [bind_eq_ok] at hprotocol
  obtain ⟨_, -, hprotocol⟩ := hprotocol
  have hlist : protocol.participants = list := by
    cases hprotocol
    rfl
  simp only [validateTripleInputs, bind_eq_ok, requireTwo, require_eq_ok, requireDistinct,
    okOr_eq_ok] at hvalidated
  obtain ⟨-, htwo, -, -, -, -, distinct, hnew, hvalidated⟩ := hvalidated
  have hdistinct : distinct = list := by
    cases hvalidated
    rfl
  rw [hlist, ← hdistinct, ParticipantList.len_of_new hnew]
  exact htwo

/-- Whatever the others send, in whichever order: if every list of theirs that is read by index has
an entry for each triple of a nonempty batch, a participant of triple generation does not panic. -/
theorem OtBasedEcdsa.TripleProtocol.never_panics_on_long_lists {F G : Type}
    [Field F] [DecidableEq F] [AddCommGroup G] [Module F G]
    [DecidableEq G] (primitives : Primitives F G) (random : TripleRandomness n F)
    (hn : 0 < n) {participants : List Participant} {me : Participant}
    {threshold : ReconstructionLowerBound} {protocol : OtBasedEcdsa.TripleProtocol}
    (hprotocol : OtBasedEcdsa.generateTripleMany n participants me threshold = .ok protocol)
    {messages : List (Incoming (TriplePayload F G))}
    (hmessages : StepsMeet Inbox.deliver (fun _ message ↦ message.payload.IndexedListsAtLeast n)
      Inbox.empty messages) :
    (protocol.party primitives random (run Inbox.deliver Inbox.empty messages)).2 ≠ .panicked := by
  have hinbox : TripleSetup.LongEnough n (run Inbox.deliver Inbox.empty messages) :=
    hmessages.invariant (Inbox.all_empty _) fun inbox message hmessage hall ↦ hall.deliver hmessage
  have hmembers := OtBasedEcdsa.participants_of_generateTripleMany hprotocol
  exact (TripleSetup.ensures_doGenerationMany _ hn (by
    show 1 ≤ protocol.participants.len
    omega) _ hinbox).1

namespace TwoParties

/-- Hash functions that return nothing. -/
def primitives : Primitives (ZMod 2) (ZMod 2) where
  generator := 1
  challenge := fun _ _ ↦ 1
  commit := fun _ _ _ _ ↦ []
  hashCommitments := fun _ ↦ []
  orderKey := fun _ _ ↦ []
  hashPoints := fun _ _ _ _ ↦ 0
  expandRow := fun _ _ _ ↦ false
  hashToScalar := fun _ _ ↦ 0
  seedBits := fun _ _ ↦ 0
  seedScalars := fun _ _ ↦ 0

/-- Every random scalar is one. -/
def random : TripleRandomness 1 (ZMod 2) where
  e := fun _ _ ↦ 1
  f := fun _ _ ↦ 1
  l := fun _ _ ↦ 1
  randomizer := fun _ ↦ []
  phiProof0Nonce := fun _ ↦ 1
  phiProof1Nonce := fun _ ↦ 1
  phiProofNonce := fun _ ↦ 1
  l0PhiProofNonce := fun _ ↦ 1
  sender := fun _ _ ↦
    { delta := 0, x := fun _ ↦ 1, seed := [], delta0 := fun _ ↦ 1, delta1 := fun _ ↦ 1 }
  receiver := fun _ _ ↦ { y := 1, b := fun _ ↦ 0, seed0 := [], seed1 := [] }

/-- The first of two participants. -/
def protocol : OtBasedEcdsa.TripleProtocol where
  participants := { participants := [1, 2], sorted := by decide }
  me := 1
  threshold := { value := 2 }

theorem generateTripleMany_eq :
    OtBasedEcdsa.generateTripleMany 1 [1, 2] 1 { value := 2 } = .ok protocol := by
  have hlist : ParticipantList.new [1, 2] = some protocol.participants := by decide
  simp [OtBasedEcdsa.generateTripleMany, OtBasedEcdsa.validateTripleInputs,
    OtBasedEcdsa.tripleGenerationMaxIncomingBufferEntries, requireTwo, requireDistinct, require,
    okOr, hlist, checkedUsize, usizeLimit, ParticipantList.len, protocol]

/-- The commitments of the second participant. -/
def commitmentsMessage (commitments : List Commitment) :
    Incoming (TriplePayload (ZMod 2) (ZMod 2)) where
  sender := 2
  header := SharedChannel.header 0
  payload := .commitments commitments

theorem one_commitment_does_not_panic :
    (protocol.party primitives random
      (run Inbox.deliver Inbox.empty [commitmentsMessage [[]]])).2 ≠ .panicked :=
  OtBasedEcdsa.TripleProtocol.never_panics_on_long_lists primitives random (by decide)
    generateTripleMany_eq ⟨le_refl 1, trivial⟩

/-- A participant that has been sent no commitment for the only triple panics. -/
theorem no_commitment_panics :
    OtBasedEcdsa.generateTripleMany 1 [1, 2] 1 { value := 2 } = .ok protocol ∧
      (protocol.party primitives random
        (run .deliver .empty [commitmentsMessage []])).2 = .panicked :=
  ⟨generateTripleMany_eq, rfl⟩

end TwoParties

end NearMpc.Threshold
