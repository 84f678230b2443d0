import NearMpc.Threshold.Comms
import NearMpc.Threshold.Proofs

/-!
# Messages of triple generation

The payloads of triple generation, with their encoders and decoders. Follows the message types of
`ecdsa/ot_based_ecdsa/triples`.

A point is encoded unless it is the identity, and the coefficients of a commitment likewise; what is
decoded is never the identity, and a decoded polynomial is never zero. The lists of a payload have
whatever length their sender chose; `IndexedListsAtLeast` is about those that `do_generation_many`
reads by index.
-/

set_option autoImplicit false

namespace NearMpc.Threshold

/-- The polynomials of the second round as they are sent. -/
structure PolynomialCommitmentsMessage (F G : Type) where
  bigE : List (List G)
  bigF : List (List G)
  bigL : List (List G)
  randomizers : List Randomness
  phiProofs0 : List (Dlog.Proof F)
  phiProofs1 : List (Dlog.Proof F)

/-- The polynomials of the second round as they are received. -/
structure PolynomialCommitmentsMessageMany (F G : Type) [Zero G] where
  bigE : List (PolynomialCommitment G)
  bigF : List (PolynomialCommitment G)
  bigL : List (PolynomialCommitment G)
  randomizers : List Randomness
  phiProofs0 : List (Dlog.Proof F)
  phiProofs1 : List (Dlog.Proof F)

/-- What the bytes of a message decode to. -/
inductive TriplePayload (F G : Type) where
  | commitments (commitments : List Commitment)
  | confirmations (confirmations : List HashOutput)
  | polynomials (message : PolynomialCommitmentsMessage F G)
  | shares (a b : List F)
  | products (points : List G) (proofs : List (Dlogeq.Proof F))
  | hatProducts (points : List G) (proofs : List (Dlog.Proof F))
  | cShares (shares : List F)
  | point (point : G)
  | bitMatrix (rows : List BitVector)
  | seed (bytes : List UInt8)
  | consistency (smallX : BitVec 256) (smallT : List (BitVec 256))
  | mtaScalars (c : List (F × F))
  | mtaChallenge (chi1 : F) (bytes : List UInt8)
  | malformed (bytes : List UInt8)

namespace TriplePayload

variable {F G : Type} [AddCommGroup G] [DecidableEq G] (points : List G)

/-- Points are only encoded and decoded if none of them is the identity. -/
def nonIdentity : Option (List G) :=
  if points.all (· ≠ 0) then some points else none

def encodePoint (value : G) : Option (TriplePayload F G) :=
  (nonIdentity [value]).map fun _ ↦ .point value

def decodePoint : TriplePayload F G → Option G
  | .point value => (nonIdentity [value]).map fun _ ↦ value
  | _ => none

/-- The coefficients of a polynomial, encoded. -/
def encodePolynomial (polynomial : PolynomialCommitment G) : Option (List G) :=
  nonIdentity polynomial.coefficients

def decodePolynomial : Option (PolynomialCommitment G) := do
  let points ← nonIdentity points
  (PolynomialCommitment.new points).toOption

def encodePolynomials (message : PolynomialCommitmentsMessageMany F G) :
    Option (TriplePayload F G) := do
  let bigE ← message.bigE.mapM encodePolynomial
  let bigF ← message.bigF.mapM encodePolynomial
  let bigL ← message.bigL.mapM encodePolynomial
  return .polynomials
    { bigE, bigF, bigL
      randomizers := message.randomizers
      phiProofs0 := message.phiProofs0
      phiProofs1 := message.phiProofs1 }

def decodePolynomials : TriplePayload F G →
    Option (PolynomialCommitmentsMessageMany F G)
  | .polynomials message => do
      let bigE ← message.bigE.mapM decodePolynomial
      let bigF ← message.bigF.mapM decodePolynomial
      let bigL ← message.bigL.mapM decodePolynomial
      return {
        bigE, bigF, bigL
        randomizers := message.randomizers
        phiProofs0 := message.phiProofs0
        phiProofs1 := message.phiProofs1 }
  | _ => none

def encodeProducts (proofs : List (Dlogeq.Proof F)) : Option (TriplePayload F G) :=
  (nonIdentity points).map fun points ↦ .products points proofs

def decodeProducts : TriplePayload F G → Option (List G × List (Dlogeq.Proof F))
  | .products points proofs => (nonIdentity points).map fun points ↦ (points, proofs)
  | _ => none

def encodeHatProducts (proofs : List (Dlog.Proof F)) : Option (TriplePayload F G) :=
  (nonIdentity points).map fun points ↦ .hatProducts points proofs

def decodeHatProducts : TriplePayload F G → Option (List G × List (Dlog.Proof F))
  | .hatProducts points proofs => (nonIdentity points).map fun points ↦ (points, proofs)
  | _ => none

omit [AddCommGroup G] [DecidableEq G]

def decodeCommitments : TriplePayload F G → Option (List Commitment)
  | .commitments list => some list
  | _ => none

def decodeConfirmations : TriplePayload F G → Option (List HashOutput)
  | .confirmations list => some list
  | _ => none

def decodeShares : TriplePayload F G → Option (List F × List F)
  | .shares a b => some (a, b)
  | _ => none

def decodeCShares : TriplePayload F G → Option (List F)
  | .cShares list => some list
  | _ => none

def decodeBitMatrix : TriplePayload F G → Option (List BitVector)
  | .bitMatrix rows => some rows
  | _ => none

def decodeSeed : TriplePayload F G → Option (List UInt8)
  | .seed bytes => some bytes
  | _ => none

def decodeConsistency : TriplePayload F G → Option (BitVec 256 × List (BitVec 256))
  | .consistency smallX smallT => some (smallX, smallT)
  | _ => none

def decodeMtaScalars : TriplePayload F G → Option (List (F × F))
  | .mtaScalars c => some c
  | _ => none

def decodeMtaChallenge : TriplePayload F G → Option (F × List UInt8)
  | .mtaChallenge chi1 bytes => some (chi1, bytes)
  | _ => none

/-- The lists of a payload that are read by index have at least `n` elements. -/
def IndexedListsAtLeast (n : ℕ) : TriplePayload F G → Prop
  | .commitments list => n ≤ list.length
  | .polynomials message =>
      n ≤ message.bigE.length ∧ n ≤ message.bigF.length ∧ n ≤ message.bigL.length ∧
        n ≤ message.randomizers.length ∧ n ≤ message.phiProofs0.length ∧
        n ≤ message.phiProofs1.length
  | .shares a b => n ≤ a.length ∧ n ≤ b.length
  | .products points proofs => n ≤ points.length ∧ n ≤ proofs.length
  | .hatProducts points proofs => n ≤ points.length ∧ n ≤ proofs.length
  | .cShares list => n ≤ list.length
  | _ => True

end TriplePayload

end NearMpc.Threshold
