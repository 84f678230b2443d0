import NearMpc.Library.BigEndian
import NearMpc.Library.HashChain
import NearMpc.Threshold.Comms
import NearMpc.Threshold.Ecdsa

/-!
# Byte strings that are hashed

The inputs of two hash functions: of the tags of channels, which follow `ChannelTag` of
`protocol/internal.rs`, and of a rerandomisation, which follow `derive_randomness` of
`ecdsa/mod.rs`. The hash functions and the encodings of points and scalars are parameters.

A channel is known by its root and the indices of the children that lead to it. Where the hash has
no collision among the strings hashed for two channels, their tags are equal exactly if they are the
same channel (`channelTag_separates`), so headers may name a channel by its root and path. The
string of a rerandomisation determines everything in it (`concatenation_canonical`).
-/

set_option autoImplicit false

namespace NearMpc.Threshold

open Library Library.BigEndian Library.Outcome

/-- The bytes of a text. -/
def bytesOf (text : String) : List UInt8 := text.toByteArray.data.toList

/-- The lowest bytes of a number, the least significant one first. -/
def leBytes (width value : ℕ) : List UInt8 := (toBytes width value).reverse

theorem length_leBytes (width value : ℕ) : (leBytes width value).length = width := by
  rw [leBytes, List.length_reverse, length_toBytes]

theorem eq_of_leBytes_eq {width first second} (hfirst : first < 256 ^ width)
    (hsecond : second < 256 ^ width) (hbytes : leBytes width first = leBytes width second) :
    first = second := by
  have hvalues := congrArg ofBytes (List.reverse_injective hbytes)
  rwa [ofBytes_toBytes, ofBytes_toBytes, Nat.mod_eq_of_lt hfirst, Nat.mod_eq_of_lt hsecond]
    at hvalues

def Participant.bytes (participant : Participant) : List UInt8 := leBytes 4 participant.toNat

theorem Participant.length_bytes (participant : Participant) : participant.bytes.length = 4 :=
  length_leBytes ..

theorem Participant.bytes_injective : Function.Injective Participant.bytes := by
  intro first second hbytes
  have hfirst := first.toNat_lt
  have hsecond := second.toNat_lt
  exact UInt32.toNat_inj.mp (eq_of_leBytes_eq (by omega) (by omega) hbytes)

/-! ### Channel tags -/

abbrev ChannelTag := Vector UInt8 32

def nearChannelTagsDomain : List UInt8 := bytesOf "Near threshold signatures channel tags"

/-- The root, with the two participants of a private one in order. -/
def ChannelRoot.sorted : ChannelRoot → ChannelRoot
  | shared => shared
  | between first second => privateBetween first second

theorem ChannelRoot.privateBetween_comm (first second : Participant) :
    privateBetween first second = privateBetween second first := by
  simp only [privateBetween, min, max]
  grind

namespace ChannelTag

/-- What the tag of a root is the hash of; the participants are sorted. -/
def rootInput : ChannelRoot → List UInt8
  | .shared => nearChannelTagsDomain ++ bytesOf "root shared"
  | .between p0 p1 => nearChannelTagsDomain ++ (bytesOf "root private" ++ (bytesOf "p0" ++
      ((min p0 p1).bytes ++ (bytesOf "p1" ++ (max p0 p1).bytes))))

/-- What the tag of a child is the hash of. -/
def childInput (tag : ChannelTag) (i : UInt64) : List UInt8 :=
  nearChannelTagsDomain ++ (bytesOf "parent" ++ (tag.toList ++ (bytesOf "i" ++ leBytes 8 i.toNat)))

theorem childInput_inj {tag other i j} (hinput : childInput tag i = childInput other j) :
    tag = other ∧ i = j := by
  obtain ⟨htag, hrest⟩ := List.append_inj
    (List.append_cancel_left (List.append_cancel_left hinput)) (by simp)
  have hi := i.toNat_lt
  have hj := j.toNat_lt
  have hindex := eq_of_leBytes_eq (by omega) (by omega) (List.append_cancel_left hrest)
  exact ⟨Vector.toList_inj.mp htag, UInt64.toNat_inj.mp hindex⟩

theorem childInput_ne_rootInput (tag : ChannelTag) (i : UInt64) (root : ChannelRoot) :
    childInput tag i ≠ rootInput root := by
  intro hinput
  -- the first byte after the domain is that of `parent` or of `root`
  have hbyte : some (112 : UInt8) = some 114 := by
    cases root with
    | shared => exact congrArg (·[0]?) (List.append_cancel_left hinput)
    | between p0 p1 => exact congrArg (·[0]?) (List.append_cancel_left hinput)
  exact absurd hbyte (by decide)

theorem rootInput_eq_iff {root other} :
    rootInput root = rootInput other ↔ root.sorted = other.sorted := by
  -- the sixth byte tells a shared root from a private one
  have hkinds (p0 p1 : Participant) : rootInput .shared ≠ rootInput (.between p0 p1) := by
    intro hinput
    have hbyte : some (115 : UInt8) = some 112 :=
      congrArg (·[5]?) (List.append_cancel_left hinput)
    exact absurd hbyte (by decide)
  cases root with
  | shared =>
    cases other with
    | shared => simp
    | between p0 p1 => simp [hkinds, ChannelRoot.sorted, ChannelRoot.privateBetween]
  | between p0 p1 =>
    cases other with
    | shared => simp [(hkinds _ _).symm, ChannelRoot.sorted, ChannelRoot.privateBetween]
    | between q0 q1 =>
      simp only [rootInput, ChannelRoot.sorted, ChannelRoot.privateBetween,
        ChannelRoot.between.injEq, List.append_cancel_left_eq]
      constructor
      · intro hbytes
        obtain ⟨hmin, hrest⟩ := List.append_inj hbytes (by simp [Participant.length_bytes])
        exact ⟨Participant.bytes_injective hmin,
          Participant.bytes_injective (List.append_cancel_left hrest)⟩
      · rintro ⟨hmin, hmax⟩
        rw [hmin, hmax]

variable (sha256 : List UInt8 → ChannelTag)

/-- `root_shared` and `root_private` -/
def ofRoot (root : ChannelRoot) : ChannelTag := sha256 (rootInput root)

def child (tag : ChannelTag) (i : UInt64) : ChannelTag := sha256 (childInput tag i)

/-- The tag of the channel that these children of a root lead to. -/
def channelTag (root : ChannelRoot) (path : List UInt64) : ChannelTag :=
  HashChain.value (child sha256) (ofRoot sha256 root) path

/-- The strings hashed on the way to a channel. -/
def hashedInputs (root : ChannelRoot) (path : List UInt64) : List (List UInt8) :=
  rootInput root :: (HashChain.links (child sha256) (ofRoot sha256 root) path).map fun link ↦
    childInput link.1 link.2

variable {sha256}

theorem channelTag_eq_of_sorted {root other} (hroot : root.sorted = other.sorted)
    (path : List UInt64) : channelTag sha256 root path = channelTag sha256 other path := by
  rw [channelTag, ofRoot, rootInput_eq_iff.mpr hroot, channelTag, ofRoot]

/-- Without a collision, two channels have the same tag exactly if they have the same root, up to
the order of its participants, and the same path. That order never matters. -/
theorem channelTag_separates (root other : ChannelRoot) (path others : List UInt64)
    (hfree : Set.InjOn sha256 {input | input ∈ hashedInputs sha256 root path ∨
      input ∈ hashedInputs sha256 other others}) :
    (channelTag sha256 root path = channelTag sha256 other others ↔
      root.sorted = other.sorted ∧ path = others) ∧
    ∀ p0 p1 path, channelTag sha256 (.between p0 p1) path =
      channelTag sha256 (.between p1 p0) path := by
  have hlink {root : ChannelRoot} {path : List UInt64} {link : ChannelTag × UInt64}
      (hlink : link ∈ HashChain.links (child sha256) (ofRoot sha256 root) path) :
      childInput link.1 link.2 ∈ hashedInputs sha256 root path :=
    List.mem_cons_of_mem _ (List.mem_map_of_mem hlink)
  refine ⟨⟨fun htag ↦ ?_, fun ⟨hroot, hpath⟩ ↦ hpath ▸ channelTag_eq_of_sorted hroot path⟩,
    fun p0 p1 path ↦ channelTag_eq_of_sorted ?_ path⟩
  · obtain ⟨hroot, hpath⟩ := HashChain.eq_of_value_eq
      (fun link hfirst next hnext hsame ↦ Prod.ext_iff.mpr
        (childInput_inj (hfree (.inl (hlink hfirst)) (.inr (hlink hnext)) hsame)))
      (fun link hfirst hsame ↦ childInput_ne_rootInput _ _ other
        (hfree (.inl (hlink hfirst)) (.inr List.mem_cons_self) hsame))
      (fun link hnext hsame ↦ childInput_ne_rootInput _ _ root
        (hfree (.inr (hlink hnext)) (.inl List.mem_cons_self) hsame)) htag
    exact ⟨rootInput_eq_iff.mp
      (hfree (.inl List.mem_cons_self) (.inr List.mem_cons_self) hroot), hpath⟩
  · exact ChannelRoot.privateBetween_comm p0 p1

/-- A child of the shared root and the root between two participants, told apart by a hash that
gives the length of its input. -/
theorem channelTag_separates_private :
    ∃ sha256 : List UInt8 → ChannelTag,
      channelTag sha256 .shared [7] ≠ channelTag sha256 (.between 2 1) [] := by
  refine ⟨fun input ↦ .replicate 32 (.ofNat input.length), fun htag ↦ ?_⟩
  refine absurd ((channelTag_separates .shared (.between 2 1) [7] [] ?_).1.mp htag).2 (by decide)
  rintro first (hfirst | hfirst) second (hsecond | hsecond) hsame <;>
    simp only [hashedInputs, HashChain.links, List.map_cons, List.map_nil, List.mem_cons,
      List.not_mem_nil, or_false] at hfirst hsecond <;>
    revert hsame <;>
    rcases hfirst with rfl | rfl <;>
    rcases hsecond with rfl | rfl <;>
    decide

end ChannelTag

/-! ### The string of a rerandomisation -/

/-- The encodings of points, compressed, and of scalars. -/
structure CurveEncodings (F G : Type) [Zero G] where
  encodePoint : G → List UInt8
  serialize : F → List UInt8
  length_encodePoint {point : G} : point ≠ 0 → (encodePoint point).length = 33
  encodePoint_injOn : Set.InjOn encodePoint {point | point ≠ 0}
  length_serialize (scalar : F) : (serialize scalar).length = 32
  serialize_injective : Function.Injective serialize

namespace RerandomizationArguments

variable {F G : Type} [Zero G]

/-- What `derive_randomness` expands when its counter is at this value. -/
def concatenation (encodings : CurveEncodings F G) (counter : UInt8)
    (args : RerandomizationArguments F G) : List UInt8 :=
  [counter, 1] ++ (encodings.encodePoint args.pk ++ (encodings.serialize args.tweak ++
    (args.msgHash ++ (encodings.encodePoint args.bigR ++
      args.participants.participants.flatMap Participant.bytes))))

theorem flatMap_bytes_injective :
    Function.Injective fun list : List Participant ↦ list.flatMap Participant.bytes := by
  intro first second hbytes
  have hlength := congrArg List.length hbytes
  simp only [List.length_flatMap, Participant.length_bytes, List.map_const', List.sum_replicate,
    smul_eq_mul, mul_eq_mul_right_iff, OfNat.ofNat_ne_zero, or_false] at hlength
  refine List.map_injective_iff.mpr Participant.bytes_injective
    (List.eq_iff_flatten_eq.mpr ⟨hbytes, ?_⟩)
  simp [Function.comp_def, Participant.length_bytes, hlength]

/-- Equal strings are of equal arguments, whatever the counters, and the order in which the
participants are listed does not matter. -/
theorem concatenation_canonical (encodings : CurveEncodings F G)
    (first second : RerandomizationArguments F G) (hpk : first.pk ≠ 0)
    (hotherPk : second.pk ≠ 0) (hbigR : first.bigR ≠ 0) (hotherBigR : second.bigR ≠ 0)
    (hmsgHash : first.msgHash.length = 32) (hotherHash : second.msgHash.length = 32)
    (counter other : UInt8) :
    (first.concatenation encodings counter = second.concatenation encodings other →
      counter = other ∧ first.pk = second.pk ∧ first.tweak = second.tweak ∧
        first.msgHash = second.msgHash ∧ first.bigR = second.bigR ∧
        first.participants = second.participants) ∧
    ∀ listed shuffled : List Participant, listed.Perm shuffled →
      (ParticipantList.new listed).map (fun list ↦
        concatenation encodings counter { first with participants := list }) =
      (ParticipantList.new shuffled).map fun list ↦
        concatenation encodings counter { first with participants := list } := by
  refine ⟨fun hsame ↦ ?_, fun listed shuffled hperm ↦ ?_⟩
  · obtain ⟨hcounter, hrest⟩ := List.append_inj hsame rfl
    obtain ⟨hsamePk, hrest⟩ := List.append_inj hrest
      (by rw [encodings.length_encodePoint hpk, encodings.length_encodePoint hotherPk])
    obtain ⟨htweak, hrest⟩ := List.append_inj hrest (by simp [encodings.length_serialize])
    obtain ⟨hsameHash, hrest⟩ := List.append_inj hrest (hmsgHash.trans hotherHash.symm)
    obtain ⟨hsameBigR, hparticipants⟩ := List.append_inj hrest
      (by rw [encodings.length_encodePoint hbigR, encodings.length_encodePoint hotherBigR])
    refine ⟨List.head_eq_of_cons_eq hcounter, encodings.encodePoint_injOn hpk hotherPk hsamePk,
      encodings.serialize_injective htweak, hsameHash,
      encodings.encodePoint_injOn hbigR hotherBigR hsameBigR, ?_⟩
    exact (ParticipantList.mk.injEq ..).mpr (flatMap_bytes_injective hparticipants)
  · rw [ParticipantList.new_eq_of_perm hperm]

/-- The participants of a string over bytes in place of points and scalars. -/
theorem concatenation_canonical_bytes :
    ∃ (encodings : CurveEncodings UInt8 UInt8) (list : ParticipantList),
      ParticipantList.new [5, 3] = some list ∧ ∀ participants counter,
        concatenation encodings counter ⟨1, 0, .replicate 32 0, 2, participants, []⟩ =
          concatenation encodings 0 ⟨1, 0, .replicate 32 0, 2, list, []⟩ →
        participants = list := by
  let encodings : CurveEncodings UInt8 UInt8 := ⟨.replicate 33, .replicate 32, by simp,
    fun _ _ _ _ hsame ↦ List.head_eq_of_cons_eq hsame, by simp,
    fun _ _ hsame ↦ List.head_eq_of_cons_eq hsame⟩
  refine ⟨encodings, ⟨[3, 5], by decide⟩, by decide, fun participants counter hsame ↦ ?_⟩
  have hone : (1 : UInt8) ≠ 0 := by decide
  have htwo : (2 : UInt8) ≠ 0 := by decide
  exact ((concatenation_canonical encodings _ _ hone hone htwo htwo rfl rfl counter 0).1
    hsame).2.2.2.2.2

end RerandomizationArguments

end NearMpc.Threshold
