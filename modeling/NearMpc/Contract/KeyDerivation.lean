import NearMpc.Contract.EventLog
import NearMpc.Contract.RequestYields

/-!
# The inputs of key derivation

A tweak and an app id are hashes of a text: the label of the family, the account of the caller, a
comma and the path. The caller chooses the path, which may contain anything. Account ids contain no
comma, so the first comma after the label ends the account, and the labels of the two families
already differ in their ninth character. Two derivations therefore hash the same bytes only if they
are the same derivation (`derivations_never_collide`). Follows `crypto_shared/kdf.rs`.
-/

set_option autoImplicit false

namespace NearMpc.Contract

/-- What is derived for an account and a path. -/
inductive DerivationFamily where
  | tweak
  | appId
deriving DecidableEq, Repr

structure Derivation where
  family : DerivationFamily
  predecessorId : AccountId
  path : String
deriving DecidableEq, Repr

def DerivationFamily.label : DerivationFamily → String
  | .tweak => "near-mpc-recovery v0.1.0 epsilon derivation:"
  | .appId => "near-mpc v0.1.0 app_id derivation:"

namespace Derivation

/-- The text that is hashed. -/
def input (derivation : Derivation) : String :=
  derivation.family.label ++ derivation.predecessorId ++ "," ++ derivation.path

variable {G EdwardsPoint : Type} (host : SignatureHost G EdwardsPoint)
  (derivation : Derivation)

def derive : Bytes32 :=
  match derivation.family with
  | .tweak => host.deriveTweak derivation.predecessorId derivation.path
  | .appId => host.deriveAppId derivation.predecessorId derivation.path

theorem derive_eq : derivation.derive host = host.sha3 derivation.input := by
  obtain ⟨family, _, _⟩ := derivation
  cases family <;> rfl

theorem label_length_ge (family : DerivationFamily) : 9 ≤ family.label.toList.length := by
  cases family <;> decide

theorem eq_of_label_take {family other : DerivationFamily}
    (htake : family.label.toList.take 9 = other.label.toList.take 9) : family = other := by
  revert htake
  cases family <;> cases other <;> decide

theorem eq_of_input_eq {first second : Derivation}
    (hfirst : ',' ∉ first.predecessorId.toList) (hsecond : ',' ∉ second.predecessorId.toList)
    (hinput : first.input = second.input) : first = second := by
  obtain ⟨_, predecessorId, path⟩ := first
  obtain ⟨_, otherId, otherPath⟩ := second
  have hlists := congrArg String.toList hinput
  simp only [input, String.toList_append, List.append_assoc] at hlists
  have htakes := congrArg (List.take 9) hlists
  rw [List.take_append_of_le_length (label_length_ge _),
    List.take_append_of_le_length (label_length_ge _)] at htakes
  obtain rfl := eq_of_label_take htakes
  obtain ⟨hid, hpath⟩ := append_cons_inj hfirst hsecond (List.append_cancel_left hlists)
  obtain rfl : predecessorId = otherId := String.toList_inj.mp hid
  obtain rfl : path = otherPath := String.toList_inj.mp hpath
  rfl

/-- Derivations with the same hashed bytes are the same, so different users or paths never share a
tweak or an app id, nor do a tweak and an app id coincide, unless two of the hashed inputs collide
under the hash function. -/
theorem derivations_never_collide (first second : Derivation)
    (hfirst : ',' ∉ first.predecessorId.toList) (hsecond : ',' ∉ second.predecessorId.toList) :
    (first.input.toUTF8 = second.input.toUTF8 → first = second) ∧
      ((host.sha3 first.input = host.sha3 second.input → first.input = second.input) →
        first.derive host = second.derive host → first = second) := by
  constructor
  · intro hbytes
    exact eq_of_input_eq hfirst hsecond (String.toByteArray_inj.mp hbytes)
  · intro hinjective hderived
    rw [derive_eq, derive_eq] at hderived
    exact eq_of_input_eq hfirst hsecond (hinjective hderived)

/-- Under a hash that repeats the length of the text, alice's tweak and app id for the same path
differ, and so do the bytes they are hashed from. -/
theorem derivations_never_collide_families :
    ∃ (host : SignatureHost ℤ ℤ) (tweak appId : Derivation),
      tweak = ⟨.tweak, "alice", "1,2"⟩ ∧ appId = ⟨.appId, "alice", "1,2"⟩ ∧
      tweak.input.toUTF8 ≠ appId.input.toUTF8 ∧ tweak.derive host ≠ appId.derive host := by
  let host : SignatureHost ℤ ℤ := { YieldingContract.EqualRequests.integerHost with
    sha3 := fun text ↦ ⟨List.replicate 32 (UInt8.ofNat text.length), by simp⟩ }
  have hseparate := derivations_never_collide host ⟨.tweak, "alice", "1,2"⟩
    ⟨.appId, "alice", "1,2"⟩ (by decide) (by decide)
  refine ⟨host, _, _, rfl, rfl, fun hbytes ↦ absurd (hseparate.1 hbytes) (by decide), ?_⟩
  intro hderived
  exact absurd (hseparate.2 (fun hhash ↦ absurd hhash (by decide)) hderived) (by decide)

end Derivation

end NearMpc.Contract
