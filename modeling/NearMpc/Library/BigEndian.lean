import Mathlib

/-!
# Big-endian byte strings

`toBytes width value` is the fixed-width big-endian encoding of a natural number and `ofBytes` its
inverse. Keys of an ordered byte store are built from such encodings: encodings of one width are
ordered as the numbers (`toBytes_append_lt`), so the keys with a common head form a range.
-/

set_option autoImplicit false

namespace NearMpc.Library.BigEndian

/-- The `width` lowest bytes of a number, the most significant one first. -/
def toBytes : ℕ → ℕ → List UInt8
  | 0, _ => []
  | width + 1, value => UInt8.ofNat (value / 256 ^ width) :: toBytes width value

variable (bytes : List UInt8)

/-- The number that a byte string encodes. -/
def ofBytes : ℕ :=
  bytes.foldl (fun value byte ↦ value * 256 + byte.toNat) 0

variable (width value : ℕ)

@[simp] theorem length_toBytes : (toBytes width value).length = width := by
  induction width with
  | zero => rfl
  | succ _ ih => simp [toBytes, ih]

/-- Decoding on from an accumulated value shifts that value by the width. -/
private theorem foldl_toBytes (width value start : ℕ) :
    (toBytes width value).foldl (fun value byte ↦ value * 256 + byte.toNat) start =
      start * 256 ^ width + value % 256 ^ width := by
  induction width generalizing start with
  | zero => simp [toBytes, Nat.mod_one]
  | succ width ih =>
    have hbyte : (UInt8.ofNat (value / 256 ^ width)).toNat = value / 256 ^ width % 256 := by
      simp
    rw [toBytes, List.foldl_cons, ih, hbyte, Nat.mod_pow_succ]
    ring

theorem ofBytes_toBytes : ofBytes (toBytes width value) = value % 256 ^ width := by
  rw [ofBytes, foldl_toBytes, zero_mul, zero_add]

/-! ### Order -/

theorem toBytes_mod : toBytes width (value % 256 ^ width) = toBytes width value := by
  have hlower : ∀ lower, lower ≤ width →
      toBytes lower (value % 256 ^ width) = toBytes lower value := by
    intro lower hle
    induction lower with
    | zero => rfl
    | succ lower ih =>
      obtain ⟨gap, rfl⟩ := Nat.exists_eq_add_of_le hle
      have hbyte : value % 256 ^ (lower + 1 + gap) / 256 ^ lower % 256 =
          value / 256 ^ lower % 256 := by
        rw [show lower + 1 + gap = lower + (gap + 1) by omega, pow_add,
          Nat.mod_mul_right_div_self, pow_succ', Nat.mod_mul_right_mod]
      rw [toBytes, toBytes, ih (Nat.le_of_succ_le hle)]
      congr 1
      rw [← UInt8.toNat_inj]
      simpa using hbyte
  exact hlower width le_rfl

/-- The high bytes of a number come first. -/
theorem toBytes_add (high low value : ℕ) :
    toBytes (high + low) value = toBytes high (value / 256 ^ low) ++ toBytes low value := by
  induction high with
  | zero => simp [toBytes]
  | succ high ih =>
    rw [Nat.succ_add, toBytes, toBytes, ih, Nat.div_div_eq_div_mul, ← pow_add,
      Nat.add_comm low high]
    rfl

/-- Encodings of one width are ordered as the numbers, whatever follows them. -/
theorem toBytes_append_lt {width first second} (hlt : first < second)
    (hwidth : second < 256 ^ width) (rest others : List UInt8) :
    toBytes width first ++ rest < toBytes width second ++ others := by
  induction width generalizing first second with
  | zero => omega
  | succ width ih =>
    have hpos : 0 < 256 ^ width := Nat.pow_pos (by norm_num)
    have hsecond : second / 256 ^ width < 256 := by
      rw [Nat.div_lt_iff_lt_mul hpos, ← pow_succ']
      exact hwidth
    have hle : first / 256 ^ width ≤ second / 256 ^ width := Nat.div_le_div_right hlt.le
    simp only [toBytes, List.cons_append, List.cons_lt_cons_iff]
    rcases hle.lt_or_eq with hhigher | hsame
    · refine .inl ?_
      rw [UInt8.lt_iff_toNat_lt, UInt8.toNat_ofNat', UInt8.toNat_ofNat',
        Nat.mod_eq_of_lt (by omega), Nat.mod_eq_of_lt (by omega)]
      exact hhigher
    · refine Or.inr ⟨by rw [hsame], ?_⟩
      have hfirst := Nat.div_add_mod first (256 ^ width)
      have hnext := Nat.div_add_mod second (256 ^ width)
      rw [hsame] at hfirst
      rw [← toBytes_mod width first, ← toBytes_mod width second]
      exact ih (by omega) (Nat.mod_lt _ hpos)

/-- The comparison of byte strings in an ordered map is their order. -/
theorem lt_of_compare {first second : List UInt8} (hcompare : compare first second = .lt) :
    first < second := by
  induction first generalizing second with
  | nil =>
    cases second with
    | nil => exact absurd hcompare (by decide)
    | cons byte rest => exact List.nil_lt_cons byte rest
  | cons _ _ ih =>
    cases second with
    | nil => exact absurd hcompare (by simp [compare, List.compareLex])
    | cons =>
      rw [List.compare_eq_compareLex, List.compareLex_cons_cons, Ordering.then_eq_lt] at hcompare
      rw [List.cons_lt_cons_iff]
      rcases hcompare with hlt | ⟨heq, hrest⟩
      · exact .inl (Std.LawfulLTCmp.eq_lt_iff_lt.mp hlt)
      · exact .inr ⟨Std.LawfulEqOrd.eq_of_compare heq, ih hrest⟩

variable (start first second : List UInt8)

theorem append_left_lt_iff : start ++ first < start ++ second ↔ first < second := by
  induction start with
  | nil => rfl
  | cons _ _ ih =>
    simp only [List.cons_append, List.cons_lt_cons_iff, UInt8.lt_irrefl, true_and, false_or, ih]

theorem append_left_le_iff : start ++ first ≤ start ++ second ↔ first ≤ second :=
  not_congr (append_left_lt_iff start second first)

/-- A key between two extensions of one prefix extends that prefix. -/
theorem exists_append_of_le_of_lt {start lower upper key : List UInt8}
    (hlower : start ++ lower ≤ key) (hupper : key < start ++ upper) :
    ∃ rest, key = start ++ rest ∧ lower ≤ rest ∧ rest < upper := by
  induction start generalizing key with
  | nil => exact ⟨key, rfl, hlower, hupper⟩
  | cons byte _ ih =>
    cases key with
    | nil => exact absurd hlower (by simp)
    | cons head =>
      rw [List.cons_append, List.cons_le_cons_iff] at hlower
      rw [List.cons_append, List.cons_lt_cons_iff] at hupper
      have hhead : byte = head := by
        rcases hlower with hless | ⟨hsame, -⟩
        · rcases hupper with hgreater | ⟨hsame, -⟩
          · exact absurd hgreater (UInt8.lt_asymm hless)
          · exact hsame.symm
        · exact hsame
      subst hhead
      simp only [UInt8.lt_irrefl, true_and, false_or] at hlower hupper
      obtain ⟨rest, rfl, hle, hlt⟩ := ih hlower hupper
      exact ⟨rest, rfl, hle, hlt⟩

/-! ### Decoding -/

theorem ofBytes_append (first second : List UInt8) :
    ofBytes (first ++ second) = ofBytes first * 256 ^ second.length + ofBytes second := by
  induction second using List.reverseRecOn with
  | nil => simp [ofBytes]
  | append_singleton _ _ ih =>
    rw [← List.append_assoc]
    unfold ofBytes at ih ⊢
    rw [List.foldl_append, ih, List.foldl_append, List.length_append]
    simp only [List.foldl_cons, List.foldl_nil, List.length_singleton, pow_succ]
    ring

theorem ofBytes_lt : ofBytes bytes < 256 ^ bytes.length := by
  induction bytes with
  | nil => simp [ofBytes]
  | cons byte rest =>
    have hbyte := byte.toNat_lt
    have hsplit := ofBytes_append [byte] rest
    rw [List.singleton_append] at hsplit
    have hhead : ofBytes [byte] = byte.toNat := by simp [ofBytes]
    rw [hsplit, hhead, List.length_cons, pow_succ]
    nlinarith

/-- Encoding a decoded string of bytes gives the string back. -/
theorem toBytes_ofBytes : toBytes bytes.length (ofBytes bytes) = bytes := by
  induction bytes with
  | nil => rfl
  | cons byte rest ih =>
    have hlt := ofBytes_lt rest
    have hsplit := ofBytes_append [byte] rest
    rw [List.singleton_append] at hsplit
    have hhead : ofBytes [byte] = byte.toNat := by simp [ofBytes]
    rw [hhead] at hsplit
    have hhigh : ofBytes (byte :: rest) / 256 ^ rest.length = byte.toNat := by
      rw [hsplit, Nat.mul_comm, Nat.mul_add_div (by positivity), Nat.div_eq_of_lt hlt, add_zero]
    have hlow : toBytes rest.length (ofBytes (byte :: rest)) = rest := by
      rw [← toBytes_mod, hsplit, Nat.mul_add_mod_self_right, Nat.mod_eq_of_lt hlt, ih]
    rw [List.length_cons, toBytes, hhigh, hlow, UInt8.ofNat_toNat]

end NearMpc.Library.BigEndian
