import NearMpc.Threshold.Constructors
import NearMpc.Threshold.Multiplication

/-!
# Triple generation

A participant's side of the generation of a batch of triples, round by round. Follows
`do_generation_many` in `ecdsa/ot_based_ecdsa/triples/generation.rs`.

What a participant computes itself has one entry for each triple of the batch and is a function on
`Fin n`. What it receives is a list of whatever length, and reading it by index panics when the list
is too short. The rounds of the source that follow the first one run beside multiplication;
`parallelToMultiplication` is that task.
-/

set_option autoImplicit false

namespace NearMpc.Threshold

open Library Library.Outcome TriplePayload SharedChannel

/-- The random values that a participant draws for a batch. -/
structure TripleRandomness (n : ℕ) (F : Type) where
  e : Fin n → ℕ → F
  f : Fin n → ℕ → F
  l : Fin n → ℕ → F
  randomizer : Fin n → Randomness
  phiProof0Nonce : Fin n → F
  phiProof1Nonce : Fin n → F
  phiProofNonce : Fin n → F
  l0PhiProofNonce : Fin n → F
  sender : Fin n → Participant → MultiplicationSenderRandomPackage F
  receiver : Fin n → Participant → MultiplicationReceiverRandomPackage F

/-- What a participant runs triple generation with. -/
structure TripleSetup (n : ℕ) (F G : Type) where
  primitives : Primitives F G
  participants : ParticipantList
  me : Participant
  threshold : ReconstructionLowerBound
  random : TripleRandomness n F

/-- An element of a received list. -/
def received {Value : Type} (values : List Value) (index : ℕ) : Outcome ProtocolError Value :=
  unwrap values[index]?

variable {F G : Type} [Field F] [DecidableEq F] [AddCommGroup G]
  [Module F G] [DecidableEq G] {n : ℕ}

/-! ### The first round -/

/-- What a participant chooses for one triple. -/
structure OwnPolynomials (F G : Type) [Zero F] [Zero G] where
  e : Polynomial F
  f : Polynomial F
  l : Polynomial F
  bigE : PolynomialCommitment G
  bigF : PolynomialCommitment G
  bigL : PolynomialCommitment G
  commitment : Commitment
  randomizer : Randomness

/-- The commitment to three polynomials, which have to be encoded for it. -/
def commitTo (primitives : Primitives F G) (bigE bigF bigL : PolynomialCommitment G)
    (randomizer : Randomness) : Except ProtocolError Commitment :=
  match encodePolynomial bigE, encodePolynomial bigF,
      encodePolynomial bigL with
  | some bigE, some bigF, some bigL => .ok (primitives.commit bigE bigF bigL randomizer)
  | _, _, _ => .error .pointSerialization

namespace TripleSetup

variable (setup : TripleSetup n F G)

def choosePolynomials (index : Fin n) : Except ProtocolError (OwnPolynomials F G) := do
  let degree1 ← checkedSub setup.threshold.value 1
  let degree2 ← checkedSub setup.threshold.value 2
  let e ← Polynomial.generatePolynomial (setup.random.e index) degree1
  let f ← Polynomial.generatePolynomial (setup.random.f index) degree1
  let l ← Polynomial.generatePolynomial (setup.random.l index) degree2
  let bigE ← e.commitPolynomial setup.primitives.generator
  let bigF ← f.commitPolynomial setup.primitives.generator
  let bigL ← l.commitPolynomial setup.primitives.generator
  let randomizer := setup.random.randomizer index
  let commitment ← commitTo setup.primitives bigE bigF bigL randomizer
  return { e, f, l, bigE, bigF, bigL, commitment, randomizer }

/-- Waits for the commitments of everyone. Every message is read by index, whoever sent it. -/
def collectCommitments : List (Participant × TriplePayload F G) →
    (Fin n → ParticipantMap Commitment) →
      Outcome ProtocolError (Option (Fin n → ParticipantMap Commitment))
  | queue, all =>
      if ∀ index, (all index).full = true then .ok (some all)
      else
        match queue with
        | [] => .ok none
        | (sender, payload) :: rest => do
            let commitments ← okOr (decodeCommitments payload) decodeError
            let all ← forEach n fun index ↦ do
              let commitment ← received commitments index
              return (all index).put sender commitment
            collectCommitments rest all
  termination_by structural queue => queue

/-- The transcript up to the confirmations. -/
def transcript (confirmations : Fin n → HashOutput) : Transcript :=
  [.group "Secp256K1Sha256", .participants setup.participants.participants,
    .threshold setup.threshold.value, .confirmation (List.ofFn confirmations)]

/-! ### Beside multiplication -/

/-- What a participant knows after the first round. -/
structure FirstRound (n : ℕ) (F G : Type) [Zero F] [Zero G] where
  own : Fin n → OwnPolynomials F G
  allCommitments : Fin n → ParticipantMap Commitment
  confirmations : Fin n → HashOutput

/-- The sums of the polynomials of one triple, and the constant terms of the others. -/
structure PolynomialSums (G : Type) [Zero G] where
  bigE : PolynomialCommitment G
  bigF : PolynomialCommitment G
  bigL : PolynomialCommitment G
  bigEZero : ParticipantMap G

variable (first : FirstRound n F G)

/-- The proofs that the constant terms of a triple are known. -/
def phiProofs (index : Fin n) : Except ProtocolError (Dlog.Proof F × Dlog.Proof F) := do
  let own := first.own index
  let transcript := setup.transcript first.confirmations
  let proof0 ← Dlog.proveWithNonce setup.primitives (transcript.fork "dlog0" setup.me)
    own.bigE.evalAtZero own.e.evalAtZero (setup.random.phiProof0Nonce index)
  let proof1 ← Dlog.proveWithNonce setup.primitives (transcript.fork "dlog1" setup.me)
    own.bigF.evalAtZero own.f.evalAtZero (setup.random.phiProof1Nonce index)
  return (proof0, proof1)

/-- Requires a proof to verify. -/
def requireVerified (verified : Except ProtocolError Bool) (text : String) :
    Outcome ProtocolError Unit := do
  let verified ← (verified : Outcome ProtocolError _)
  require (verified = true) (.assertionFailed text)

/-- Checks the polynomials of a participant for one triple, and adds them to the sums. -/
def absorbPolynomials (sender : Participant) (their : PolynomialCommitmentsMessageMany F G)
    (index : Fin n) (sums : PolynomialSums G) :
    Outcome ProtocolError (PolynomialSums G) := do
  let theirE ← received their.bigE index
  let theirF ← received their.bigF index
  let theirL ← received their.bigL index
  let theirRandomizer ← received their.randomizers index
  let theirProof0 ← received their.phiProofs0 index
  let theirProof1 ← received their.phiProofs1 index
  require (theirE.degree = setup.threshold.value - 1 ∧ theirF.degree = setup.threshold.value - 1 ∧
      theirL.degree = setup.threshold.value - 2)
    (.assertionFailed ("polynomial from " ++ sender.debug ++ " has the wrong length"))
  let commitment ← ((first.allCommitments index).index sender : Outcome ProtocolError _)
  let actual ← (commitTo setup.primitives theirE theirF theirL theirRandomizer :
    Outcome ProtocolError _)
  require (commitment = actual)
    (.assertionFailed ("commitment from " ++ sender.debug ++ " did not match revealed F"))
  let transcript := setup.transcript first.confirmations
  requireVerified
    (Dlog.verify setup.primitives (transcript.fork "dlog0" sender) theirE.evalAtZero theirProof0)
    ("dlog proof from " ++ sender.debug ++ " failed to verify")
  requireVerified
    (Dlog.verify setup.primitives (transcript.fork "dlog1" sender) theirF.evalAtZero theirProof1)
    ("dlog proof from " ++ sender.debug ++ " failed to verify")
  let bigE ← (sums.bigE.add theirE : Outcome ProtocolError _)
  let bigF ← (sums.bigF.add theirF : Outcome ProtocolError _)
  let bigL ← (sums.bigL.add theirL : Outcome ProtocolError _)
  return { bigE, bigF, bigL, bigEZero := sums.bigEZero.put sender theirE.evalAtZero }

/-- Adds what a participant sent for each triple. -/
def absorb {Message State : Type}
    (step : Participant → Message → Fin n → State → Outcome ProtocolError State)
    (start : Fin n → State) (messages : List (Participant × Message)) :
    Outcome ProtocolError (Fin n → State) :=
  messages.foldlM (fun states entry ↦
    forEach n fun index ↦ step entry.1 entry.2 index (states index)) start

/-- Adds the shares of a participant for one triple. -/
def absorbShares (_sender : Participant) (their : List F × List F) (index : Fin n)
    (shares : F × F) : Outcome ProtocolError (F × F) := do
  let a ← received their.1 index
  let b ← received their.2 index
  return (shares.1 + a, shares.2 + b)

/-- Checks the shares of one triple, and computes the product with its proof. -/
def product (sums : PolynomialSums G) (shares : F × F) (index : Fin n) :
    Except ProtocolError (G × Dlogeq.Proof F) := do
  let own := first.own index
  if sums.bigE.evalAtParticipant F setup.me ≠ shares.1 • setup.primitives.generator ∨
      sums.bigF.evalAtParticipant F setup.me ≠ shares.2 • setup.primitives.generator then
    throw (.assertionFailed "received bad private share")
  let bigC := own.e.evalAtZero • sums.bigF.evalAtZero
  let proof ← Dlogeq.proveWithNonce setup.primitives
    ((setup.transcript first.confirmations).fork "dlogeq0" setup.me)
    { public0 := own.bigE.evalAtZero, generator1 := sums.bigF.evalAtZero, public1 := bigC }
    own.e.evalAtZero (setup.random.phiProofNonce index)
  return (bigC, proof)

/-- Checks the product of a participant for one triple, and adds it. -/
def absorbProducts (sums : Fin n → PolynomialSums G) (sender : Participant)
    (their : List G × List (Dlogeq.Proof F)) (index : Fin n) (bigC : G) :
    Outcome ProtocolError G := do
  let theirC ← received their.1 index
  let theirProof ← received their.2 index
  let public0 ← ((sums index).bigEZero.index sender : Outcome ProtocolError _)
  requireVerified
    (Dlogeq.verify setup.primitives
      ((setup.transcript first.confirmations).fork "dlogeq0" sender)
      { public0, generator1 := (sums index).bigF.evalAtZero, public1 := theirC } theirProof)
    ("dlogeq proof from " ++ sender.debug ++ " failed to verify")
  return bigC + theirC

/-- What the task beside multiplication returns for one triple. -/
structure ParallelOutput (F G : Type) [Zero G] where
  bigE : PolynomialCommitment G
  bigF : PolynomialCommitment G
  bigL : PolynomialCommitment G
  bigC : G
  a : F
  b : F

/-- The others confirm the same commitments. -/
def requireConfirmed (confirmations : Fin n → HashOutput) :
    List (Participant × List HashOutput) → Outcome ProtocolError Unit
  | [] => .ok ()
  | (sender, confirmation) :: rest => do
      require (confirmation = List.ofFn confirmations)
        (.assertionFailed ("confirmation from " ++ sender.debug ++ " did not match expectation"))
      requireConfirmed confirmations rest

/-- The sums that a participant starts with: its own polynomials. -/
def ownSums (index : Fin n) : PolynomialSums G where
  bigE := (first.own index).bigE
  bigF := (first.own index).bigF
  bigL := (first.own index).bigL
  bigEZero := ParticipantMap.new setup.participants

/-- The task that runs beside multiplication. -/
def parallelToMultiplication :
    Party (TriplePayload F G) (Fin n → ParallelOutput F G) := do
  let others := setup.participants.others setup.me
  sendMany 1 (some (.confirmations (List.ofFn first.confirmations)))
  let proofs ← ofExcept (forEach n (setup.phiProofs first))
  sendMany 2 (encodePolynomials
    { bigE := List.ofFn fun index ↦ (first.own index).bigE
      bigF := List.ofFn fun index ↦ (first.own index).bigF
      bigL := List.ofFn fun index ↦ (first.own index).bigL
      randomizers := List.ofFn fun index ↦ (first.own index).randomizer
      phiProofs0 := List.ofFn fun index ↦ (proofs index).1
      phiProofs1 := List.ofFn fun index ↦ (proofs index).2 })
  sendEach 3 (fun participant ↦ some (.shares
    (List.ofFn fun index ↦ (first.own index).e.evalAtParticipant participant)
    (List.ofFn fun index ↦ (first.own index).f.evalAtParticipant participant))) others
  let confirmed ← recvFromOthers decodeConfirmations 1 setup.participants setup.me
  requireConfirmed first.confirmations confirmed
  let polynomials ← recvFromOthers decodePolynomials 2 setup.participants setup.me
  let sums ← absorb (setup.absorbPolynomials first) (setup.ownSums first) polynomials
  let theirShares ← recvFromOthers decodeShares 3 setup.participants setup.me
  let shares ← absorb absorbShares (fun index ↦
    ((first.own index).e.evalAtParticipant setup.me,
      (first.own index).f.evalAtParticipant setup.me)) theirShares
  let products ← ofExcept (forEach n fun index ↦
    setup.product first (sums index) (shares index) index)
  sendMany 4 (encodeProducts
    (List.ofFn fun index ↦ (products index).1) (List.ofFn fun index ↦ (products index).2))
  let theirProducts ← recvFromOthers decodeProducts 4 setup.participants setup.me
  let bigC ← absorb (setup.absorbProducts first sums) (fun index ↦ (products index).1)
    theirProducts
  let bigL ← ofExcept (forEach n fun index ↦ (sums index).bigL.extendWithIdentity)
  return fun index ↦
    { bigE := (sums index).bigE
      bigF := (sums index).bigF
      bigL := bigL index
      bigC := bigC index
      a := (shares index).1
      b := (shares index).2 }

/-! ### The last rounds -/

variable (l0 : Fin n → F)

/-- The proof that the share of a product is known. -/
def hatProof (index : Fin n) : Except ProtocolError (Dlog.Proof F) :=
  Dlog.proveWithNonce setup.primitives
    ((setup.transcript first.confirmations).fork "dlog2" setup.me)
    (l0 index • setup.primitives.generator) (l0 index) (setup.random.l0PhiProofNonce index)

/-- The polynomial of the product, with the share of the product as its constant term. -/
def extendedL (index : Fin n) : Except ProtocolError (Polynomial F) := do
  let extended ← (first.own index).l.extendWithZero
  extended.setNonzeroConstant (l0 index)

/-- Checks the committed share of a participant for one triple, and adds it. -/
def absorbHatProducts (sender : Participant) (their : List G × List (Dlog.Proof F))
    (index : Fin n) (hatC : G) : Outcome ProtocolError G := do
  let theirHatC ← received their.1 index
  let theirProof ← received their.2 index
  requireVerified
    (Dlog.verify setup.primitives ((setup.transcript first.confirmations).fork "dlog2" sender)
      theirHatC theirProof)
    ("dlog proof from " ++ sender.debug ++ " failed to verify")
  return hatC + theirHatC

variable (output : ParallelOutput F G)

/-- The summed polynomial of the product agrees with the product. -/
def completedL (hatC : G) : Except ProtocolError (PolynomialCommitment G) := do
  let bigL ← output.bigL.setNonIdentityConstant hatC
  if bigL.evalAtZero ≠ output.bigC then
    throw (.assertionFailed "final polynomial doesn't match C value")
  return bigL

/-- Adds the share of a participant for one triple. -/
def absorbCShares (_sender : Participant) (their : List F) (index : Fin n) (c : F) :
    Outcome ProtocolError F := do
  let share ← received their index
  return c + share

/-- Checks the share of the product, and puts the triple together. -/
def triple (bigL : PolynomialCommitment G) (c : F) :
    Except ProtocolError (OtBasedEcdsa.TripleGenerationOutput F G) := do
  if bigL.evalAtParticipant F setup.me ≠ c • setup.primitives.generator then
    throw (.assertionFailed "received bad private share of c")
  return ({ a := output.a, b := output.b, c },
    { bigA := output.bigE.evalAtZero
      bigB := output.bigF.evalAtZero
      bigC := output.bigC
      participants := setup.participants.participants
      threshold := setup.threshold })

/-- The rounds after multiplication. -/
def lastRounds (outputs : Fin n → ParallelOutput F G) :
    Party (TriplePayload F G)
      (List (OtBasedEcdsa.TripleGenerationOutput F G)) := do
  let others := setup.participants.others setup.me
  let proofs ← ofExcept (forEach n (setup.hatProof first l0))
  sendMany 5 (encodeHatProducts
    (List.ofFn fun index ↦ l0 index • setup.primitives.generator) (List.ofFn proofs))
  let l ← ofExcept (forEach n (extendedL first l0))
  sendEach 6 (fun participant ↦ some (.cShares
    (List.ofFn fun index ↦ (l index).evalAtParticipant participant))) others
  let theirHatProducts ← recvFromOthers decodeHatProducts 5 setup.participants
    setup.me
  let hatC ← absorb (setup.absorbHatProducts first)
    (fun index ↦ l0 index • setup.primitives.generator) theirHatProducts
  let bigL ← ofExcept (forEach n fun index ↦ completedL (outputs index) (hatC index))
  let theirCShares ← recvFromOthers decodeCShares 6 setup.participants setup.me
  let c ← absorb absorbCShares (fun index ↦ (l index).evalAtParticipant setup.me)
    theirCShares
  let triples ← ofExcept (forEach n fun index ↦
    setup.triple (outputs index) (bigL index) (c index))
  return List.ofFn triples

/-- A participant's side of triple generation; `n` is the const parameter `N`. -/
def doGenerationMany : Party (TriplePayload F G)
    (List (OtBasedEcdsa.TripleGenerationOutput F G)) := do
  (guardPanic (0 < n) : Outcome ProtocolError _)
  let own ← ofExcept (forEach n setup.choosePolynomials)
  sendMany 0 (some (.commitments (List.ofFn fun index ↦ (own index).commitment)))
  let allCommitments ← Session.read fun inbox ↦
    collectCommitments (inbox (header 0)) fun index ↦
      (ParticipantMap.new setup.participants).put setup.me (own index).commitment
  let confirmations : Fin n → HashOutput := fun index ↦
    setup.primitives.hashCommitments (allCommitments index).toList
  let first : FirstRound n F G := { own, allCommitments, confirmations }
  let (l0, outputs) ← Session.tryJoin
    (multiplicationMany setup.primitives confirmations setup.participants setup.me
      (fun index ↦ (own index).e.evalAtZero) (fun index ↦ (own index).f.evalAtZero)
      setup.random.sender setup.random.receiver)
    (setup.parallelToMultiplication first)
  setup.lastRounds first l0 outputs

end TripleSetup

end NearMpc.Threshold
