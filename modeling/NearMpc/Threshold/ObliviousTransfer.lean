import NearMpc.Threshold.TripleMessages

/-!
# Oblivious transfers

The two-party protocols below multiplication: batch random oblivious transfer, its correlated and
random extensions, and the conversion of a product of two secrets into a sum. Follows
`batch_random_ot.rs`, `correlated_ot_extension.rs`, `random_ot_extension.rs`, `mta.rs` and `bits.rs`
in `ecdsa/ot_based_ecdsa/triples`.

Vectors of received values are checked against the length expected before they are used. For each
protocol a lemma `ensures_…` says that it does not panic on any messages, and how long the vectors
it returns are; the lengths are what the next protocol needs.
-/

set_option autoImplicit false

namespace NearMpc.Threshold

open Library Library.Outcome PrivateChannel

/-! ### Bits -/

def securityParameter : ℕ := 128

/-- The number of bits of a scalar. -/
def scalarBits : ℕ := 256

namespace BitVector

/-- The unreduced product of two polynomials over the field with two elements. -/
def gfMul (first second : BitVector) : BitVec 256 :=
  (List.range 64).reverse.foldl (fun out k ↦
    let added := [0, 1].foldl (fun out j ↦
      if first.getLsbD (64 * j + k) then out ^^^ (second.setWidth 256 <<< (64 * j)) else out) out
    if k ≠ 0 then added <<< 1 else added) 0

/-- The vector with the given bits. -/
def ofBits (bits : ℕ → Bool) : BitVector :=
  (List.range securityParameter).foldl (fun out i ↦
    if bits i then out ||| (1#128 <<< i) else out) 0

end BitVector

namespace BitMatrix

/-- A column of a matrix, cut into vectors; rows that do not fill a vector are left out. -/
def columnChunks (rows : List BitVector) (column : ℕ) : List BitVector :=
  (List.range (rows.length / securityParameter)).map fun chunk ↦
    BitVector.ofBits fun i ↦
      (rows.getD (chunk * securityParameter + i) 0).getLsbD column

/-- Xors the rows of the second matrix into the first. -/
def xor : List BitVector → List BitVector → List BitVector
  | [], _ => []
  | rows, [] => rows
  | row :: rows, other :: others => (row ^^^ other) :: xor rows others

theorem length_xor (rows others : List BitVector) : (xor rows others).length = rows.length := by
  induction rows generalizing others with
  | nil => simp [xor]
  | cons _ _ ih =>
    cases others with
    | nil => simp [xor]
    | cons => simp [xor, ih]

end BitMatrix

/-- A matrix with as many rows as columns. -/
structure SquareBitMatrix where
  rows : List BitVector
  height : rows.length = securityParameter

namespace SquareBitMatrix

def tryFrom (rows : List BitVector) : Except ProtocolError SquareBitMatrix :=
  if hheight : rows.length = securityParameter then .ok ⟨rows, hheight⟩
  else .error (.assertionFailed "()")

end SquareBitMatrix

section Expansion

variable {F G : Type} (primitives : Primitives F G) (matrix : SquareBitMatrix)
  (sid : HashOutput)

/-- Expands each row to the given number of bits, and transposes the result. -/
def SquareBitMatrix.expandTranspose (rows : ℕ) : Outcome ProtocolError (List BitVector) := do
  guardPanic (rows % securityParameter = 0)
  return (List.range rows).map fun i ↦
    BitVector.ofBits fun j ↦ primitives.expandRow sid (matrix.rows.getD j 0) i

theorem SquareBitMatrix.length_expandTranspose {primitives : Primitives F G}
    {matrix : SquareBitMatrix} {sid : HashOutput} {rows : ℕ} {expanded : List BitVector}
    (hexpanded : matrix.expandTranspose primitives sid rows = .ok expanded) :
    expanded.length = rows := by
  simp only [expandTranspose, bind_eq_ok, pure_eq, ok.injEq] at hexpanded
  obtain ⟨-, -, rfl⟩ := hexpanded
  simp

theorem SquareBitMatrix.expandTranspose_ne_panicked {rows} (hrows : rows % securityParameter = 0) :
    matrix.expandTranspose primitives sid rows ≠ .panicked := by
  simp [expandTranspose, guardPanic, hrows]

end Expansion

/-! ### Batch random oblivious transfer -/

section BatchRandom

variable {F G : Type} [Field F] [AddCommGroup G] [Module F G]
  [DecidableEq G] (primitives : Primitives F G) (channel : PrivateChannel)

omit [Field F] [Module F G] in
/-- The hash of three points, none of which may be the identity. -/
def hashPoints (index : ℕ) (bigX bigY point : G) : Except ProtocolError BitVector := do
  requireSerializable bigX .pointSerialization
  requireSerializable bigY .pointSerialization
  requireSerializable point .pointSerialization
  return primitives.hashPoints index bigX bigY point

/-- One transfer of the sender. -/
def batchRandomOtSenderTask (y : F) (index : ℕ) :
    Party (TriplePayload F G) (BitVector × BitVector) := do
  let bigY := y • primitives.generator
  let bigZ := y • bigY
  let bigX ← (channel.child index).recv TriplePayload.decodePoint 0
  let yBigX := y • bigX
  let bigK0 ← (hashPoints primitives index bigX bigY yBigX : Outcome ProtocolError _)
  let bigK1 ← (hashPoints primitives index bigX bigY (yBigX - bigZ) : Outcome ProtocolError _)
  return (bigK0, bigK1)

def batchRandomOtSender (y : F) :
    Party (TriplePayload F G) (SquareBitMatrix × SquareBitMatrix) := do
  channel.send 0 (TriplePayload.encodePoint (y • primitives.generator))
  let out ← Session.tryJoinAll
    ((List.range securityParameter).map (batchRandomOtSenderTask primitives channel y))
  let bigK0 ← (SquareBitMatrix.tryFrom (out.map Prod.fst) : Outcome ProtocolError _)
  let bigK1 ← (SquareBitMatrix.tryFrom (out.map Prod.snd) : Outcome ProtocolError _)
  return (bigK0, bigK1)

def batchRandomOtReceiver (delta : BitVector) (x : Fin securityParameter → F) :
    Party (TriplePayload F G) SquareBitMatrix := do
  let bigY ← channel.recv TriplePayload.decodePoint 0
  let out ← forEach securityParameter fun i ↦ do
    let base := x i • primitives.generator
    let bigX := if delta.getLsbD i then base + bigY else base
    (channel.child i).send 0 (TriplePayload.encodePoint bigX)
    (hashPoints primitives i bigX bigY (x i • bigY) : Outcome ProtocolError _)
  (SquareBitMatrix.tryFrom (List.ofFn out) : Outcome ProtocolError _)

variable {condition : Inbox (TriplePayload F G) → Prop}

theorem ensures_batchRandomOtSenderTask (y : F) (index : ℕ) :
    (batchRandomOtSenderTask primitives channel y index).Ensures condition fun _ ↦ True := by
  unfold batchRandomOtSenderTask
  refine (ensures_recv _ _ _).bind fun bigX _ ↦ ?_
  refine (Session.Ensures.liftExcept _).bind fun bigK0 _ ↦ ?_
  refine (Session.Ensures.liftExcept _).bind fun bigK1 _ ↦ ?_
  exact Session.Ensures.pure trivial

theorem ensures_batchRandomOtSender (y : F) :
    (batchRandomOtSender primitives channel y).Ensures condition fun _ ↦ True := by
  unfold batchRandomOtSender
  refine (ensures_send _ _ _).bind fun _ _ ↦ ?_
  have htasks : ∀ task ∈ (List.range securityParameter).map
      (batchRandomOtSenderTask primitives channel y), task.Ensures condition fun _ ↦ True := by
    intro _ htask
    obtain ⟨index, -, rfl⟩ := List.mem_map.mp htask
    exact ensures_batchRandomOtSenderTask primitives channel y index
  refine (Session.Ensures.tryJoinAll htasks).bind fun out _ ↦ ?_
  refine (Session.Ensures.liftExcept _).bind fun bigK0 _ ↦ ?_
  refine (Session.Ensures.liftExcept _).bind fun bigK1 _ ↦ ?_
  exact Session.Ensures.pure trivial

theorem ensures_batchRandomOtReceiver (delta : BitVector) (x : Fin securityParameter → F) :
    (batchRandomOtReceiver primitives channel delta x).Ensures condition fun _ ↦ True := by
  unfold batchRandomOtReceiver
  refine (ensures_recv _ _ _).bind fun bigY _ ↦ ?_
  refine (Session.Ensures.forEach (fun _ ↦ True) fun index ↦ ?_).bind fun out _ ↦ ?_
  · refine (ensures_send _ _ _).bind fun _ _ ↦ ?_
    exact (Session.Ensures.liftExcept _).mono fun _ _ ↦ trivial
  · rw [Session.monadLift_eq, monadLift_except]
    exact (Session.Ensures.liftExcept _).mono fun _ _ ↦ trivial

end BatchRandom

/-! ### Extensions -/

section Extensions

variable {F G : Type} (primitives : Primitives F G) (channel : PrivateChannel)
  (sid : HashOutput) (batchSize : ℕ) (delta : BitVector) (k : SquareBitMatrix)

def correlatedOtSender : Party (TriplePayload F G) (List BitVector) := do
  let t ← k.expandTranspose primitives sid batchSize
  let u ← channel.recv TriplePayload.decodeBitMatrix 0
  (require (u.length = batchSize)
    (.assertionFailed ("expected matrix of height " ++ toString batchSize ++ " found " ++
      toString u.length)) : Outcome ProtocolError _)
  return BitMatrix.xor (u.map (· &&& delta)) t

variable (k0 k1 : SquareBitMatrix)

def correlatedOtReceiver (x : List BitVector) :
    Party (TriplePayload F G) (List BitVector) := do
  (require (x.length = batchSize)
    (.assertionFailed "x.height() not equal to params.batch_size") : Outcome ProtocolError _)
  let t0 ← k0.expandTranspose primitives sid batchSize
  let t1 ← k1.expandTranspose primitives sid batchSize
  channel.send 0 (some (.bitMatrix (BitMatrix.xor (BitMatrix.xor t0 t1) x)))
  return t0

/-- The size with padding. -/
def adjustSize (size : ℕ) : ℕ :=
  (if size % securityParameter = 0 then size
    else size + (securityParameter - size % securityParameter)) + 2 * securityParameter

/-- The sum of products of a column with the challenge. -/
def columnCheck (rows : List BitVector) (chi : List BitVector) (column : ℕ) : BitVec 256 :=
  ((BitMatrix.columnChunks rows column).zip chi).foldl
    (fun sum pair ↦ sum ^^^ BitVector.gfMul pair.1 pair.2) 0

def randomOtExtensionSender (transcriptSeed : List UInt8) :
    Party (TriplePayload F G) (List (F × F)) := do
  let adjustedSize := adjustSize batchSize
  let q ← correlatedOtSender primitives (channel.child 0) sid adjustedSize delta k
  channel.send 0 (some (.seed transcriptSeed))
  let mu := adjustedSize / securityParameter
  let chi := (List.range mu).map (primitives.seedBits transcriptSeed)
  let (smallX, smallT) ← channel.recv TriplePayload.decodeConsistency 1
  (require (smallT.length = securityParameter)
    (.assertionFailed "small t of incorrect length") : Outcome ProtocolError _)
  (require (∀ entry ∈ smallT.zipIdx,
      columnCheck q chi entry.2 = entry.1 ^^^ (if delta.getLsbD entry.2 then smallX else 0))
    (.assertionFailed "q check failed") : Outcome ProtocolError _)
  return (q.take batchSize).mapIdx fun i row ↦
    (primitives.hashToScalar i row, primitives.hashToScalar i (row ^^^ delta))

/-- The bits of a choice vector. -/
def choiceBits (b : List BitVector) : List Bool :=
  b.flatMap fun chunk ↦ (List.range securityParameter).map chunk.getLsbD

def randomOtExtensionReceiver (b : List BitVector) :
    Party (TriplePayload F G) (List (Bool × F)) := do
  let adjustedSize := adjustSize batchSize
  let x : List BitVector := (choiceBits b).map fun bit ↦ if bit then BitVec.allOnes 128 else 0
  let t ← correlatedOtReceiver primitives (channel.child 0) sid adjustedSize k0 k1 x
  let seed ← channel.recv TriplePayload.decodeSeed 0
  let mu := adjustedSize / securityParameter
  let chi := (List.range mu).map (primitives.seedBits seed)
  let smallX := (b.zip chi).foldl (fun sum pair ↦ sum ^^^ BitVector.gfMul pair.1 pair.2) 0
  let smallT := (List.range securityParameter).map (columnCheck t chi)
  channel.send 1 (some (.consistency smallX smallT))
  return (((choiceBits b).zip t).take batchSize).mapIdx fun i entry ↦
    (entry.1, primitives.hashToScalar i entry.2)

variable {condition : Inbox (TriplePayload F G) → Prop} (sid : HashOutput) {batchSize : ℕ}

theorem ensures_correlatedOtSender (hbatch : batchSize % securityParameter = 0) (delta : BitVector)
    (k : SquareBitMatrix) :
    (correlatedOtSender primitives channel sid batchSize delta k).Ensures condition
      fun q ↦ q.length = batchSize := by
  unfold correlatedOtSender
  refine (Session.Ensures.lift (k.expandTranspose_ne_panicked primitives sid hbatch)
    fun _ _ ↦ trivial).bind fun t _ ↦ ?_
  refine (ensures_recv _ _ _).bind fun u _ ↦ ?_
  refine (Session.Ensures.require _ _).bind fun _ hheight ↦ Session.Ensures.pure ?_
  rw [BitMatrix.length_xor, List.length_map, hheight]

theorem ensures_correlatedOtReceiver (hbatch : batchSize % securityParameter = 0)
    (k0 k1 : SquareBitMatrix) (x : List BitVector) :
    (correlatedOtReceiver primitives channel sid batchSize k0 k1 x).Ensures condition
      fun t ↦ t.length = batchSize := by
  unfold correlatedOtReceiver
  refine (Session.Ensures.require _ _).bind fun _ _ ↦ ?_
  refine (Session.Ensures.lift (k0.expandTranspose_ne_panicked primitives sid hbatch)
    fun _ hexpanded ↦ SquareBitMatrix.length_expandTranspose hexpanded).bind fun t0 ht0 ↦ ?_
  refine (Session.Ensures.lift (k1.expandTranspose_ne_panicked primitives sid hbatch)
    fun _ _ ↦ trivial).bind fun t1 _ ↦ ?_
  refine (ensures_send _ _ _).bind fun _ _ ↦ .pure ht0

theorem adjustSize_mod (size : ℕ) : adjustSize size % securityParameter = 0 := by
  unfold adjustSize securityParameter
  split_ifs <;> omega

theorem le_adjustSize (size : ℕ) : size ≤ adjustSize size := by
  unfold adjustSize securityParameter
  split_ifs <;> omega

theorem ensures_randomOtExtensionSender (sid : HashOutput) (batchSize : ℕ) (delta : BitVector)
    (k : SquareBitMatrix) (transcriptSeed : List UInt8) :
    (randomOtExtensionSender primitives channel sid batchSize delta k transcriptSeed).Ensures
      condition fun out ↦ out.length = batchSize := by
  unfold randomOtExtensionSender
  refine (ensures_correlatedOtSender primitives _ sid (adjustSize_mod batchSize) delta
    k).bind fun q hq ↦ ?_
  refine (ensures_send _ _ _).bind fun _ _ ↦ ?_
  refine (ensures_recv _ _ _).bind fun received _ ↦ ?_
  refine (Session.Ensures.require _ _).bind fun _ _ ↦ ?_
  refine (Session.Ensures.require _ _).bind fun _ _ ↦ Session.Ensures.pure ?_
  rw [List.length_mapIdx, List.length_take, hq, min_eq_left (le_adjustSize batchSize)]

theorem length_choiceBits (b : List BitVector) :
    (choiceBits b).length = b.length * securityParameter := by
  simp [choiceBits, List.length_flatMap]

theorem ensures_randomOtExtensionReceiver (k0 k1 : SquareBitMatrix) {b}
    (hb : b.length * securityParameter = adjustSize batchSize) :
    (randomOtExtensionReceiver primitives channel sid batchSize k0 k1 b).Ensures condition
      fun out ↦ out.length = batchSize := by
  unfold randomOtExtensionReceiver
  refine (ensures_correlatedOtReceiver primitives _ sid (adjustSize_mod batchSize) k0 k1
    _).bind fun t ht ↦ ?_
  refine (ensures_recv _ _ _).bind fun seed _ ↦ ?_
  refine (ensures_send _ _ _).bind fun _ _ ↦ .pure ?_
  rw [List.length_mapIdx, List.length_take, List.length_zip, length_choiceBits, ht, hb, min_self,
    min_eq_left (le_adjustSize batchSize)]

end Extensions

/-! ### From products to sums -/

section Mta

variable {F G : Type} [Field F] (primitives : Primitives F G)
  (channel : PrivateChannel)

def mtaSender (v : List (F × F)) (a : F) (delta : List F) :
    Party (TriplePayload F G) F := do
  channel.send 0 (some (.mtaScalars ((delta.zip v).map fun entry ↦
    (entry.2.1 + entry.1 + a, entry.2.2 + entry.1 - a))))
  let (chi1, seed) ← channel.recv TriplePayload.decodeMtaChallenge 1
  let first ← (unwrap delta.head? : Outcome ProtocolError _)
  return -((delta.tail.mapIdx fun i entry ↦ entry * primitives.seedScalars seed i).foldl (· + ·)
    (first * chi1))

/-- One of two values. -/
def conditionalSelect (first second : F) (choice : Bool) : F :=
  if choice then second else first

def mtaReceiver (tv : List (Bool × F)) (b : F) (seed : List UInt8) :
    Party (TriplePayload F G) F := do
  let c ← channel.recv TriplePayload.decodeMtaScalars 0
  (require (c.length = tv.length) (.assertionFailed "length of c was incorrect") :
    Outcome ProtocolError _)
  let m := (tv.zip c).map fun entry ↦
    conditionalSelect entry.2.1 entry.2.2 entry.1.1 - entry.1.2
  let chi := (List.range (tv.length - 1)).map (primitives.seedScalars seed)
  let rest := (tv.tail.zip chi).foldl
    (fun sum entry ↦ sum + conditionalSelect entry.2 (-entry.2) entry.1.1) 0
  let first ← (unwrap tv.head? : Outcome ProtocolError _)
  let chi1 := conditionalSelect (b - rest) (-(b - rest)) first.1
  let m0 ← (okOr m.head? (.assertionFailed "Not enough elements received") :
    Outcome ProtocolError _)
  let beta := (chi.zip m.tail).foldl (fun sum entry ↦ sum + entry.1 * entry.2) (chi1 * m0)
  channel.send 1 (some (.mtaChallenge chi1 seed))
  return beta

variable {condition : Inbox (TriplePayload F G) → Prop}

theorem ensures_mtaSender (v : List (F × F)) (a : F) {delta} (hdelta : delta ≠ []) :
    (mtaSender primitives channel v a delta).Ensures condition fun _ ↦ True := by
  unfold mtaSender
  refine (ensures_send _ _ _).bind fun _ _ ↦ ?_
  refine (ensures_recv _ _ _).bind fun received _ ↦ ?_
  have hhead : (unwrap delta.head? : Outcome ProtocolError F) ≠ .panicked := by
    rw [Ne, unwrap_eq_panicked, List.head?_eq_none_iff]
    exact hdelta
  refine (Session.Ensures.lift hhead fun _ _ ↦ trivial).bind fun first _ ↦ ?_
  exact Session.Ensures.pure trivial

theorem ensures_mtaReceiver {tv} (htv : tv ≠ []) (b : F) (seed : List UInt8) :
    (mtaReceiver primitives channel tv b seed).Ensures condition fun _ ↦ True := by
  unfold mtaReceiver
  refine (ensures_recv _ _ _).bind fun c _ ↦ ?_
  refine (Session.Ensures.require _ _).bind fun _ _ ↦ ?_
  have hhead : (unwrap tv.head? : Outcome ProtocolError (Bool × F)) ≠ .panicked := by
    rw [Ne, unwrap_eq_panicked, List.head?_eq_none_iff]
    exact htv
  refine (Session.Ensures.lift hhead fun _ _ ↦ trivial).bind fun first _ ↦ ?_
  refine (Session.Ensures.lift (okOr_ne_panicked _ _) fun _ _ ↦ trivial).bind fun m0 _ ↦ ?_
  exact (ensures_send _ _ _).bind fun _ _ ↦ Session.Ensures.pure trivial

end Mta

end NearMpc.Threshold
