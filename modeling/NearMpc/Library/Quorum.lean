import Mathlib

/-!
# Counting votes

A `CounterList` keeps how often each value has been counted; values need only be comparable for
equality. `count` reads it with zero for a value that has not been counted yet. `Tallies` says that
the counters are those of one vote of each of a set of voters, for a value which the voter supports.

Two sets of more than `(n + f) / 2` of `n` voters have a voter in common that is none of `f` faulty
ones (`exists_common_notMem`): this is what makes the values behind two such quorums agree.
-/

set_option autoImplicit false

namespace NearMpc.Library

/-- Values with the number of times they have been counted. -/
abbrev CounterList (Value : Type) := List (Value × ℕ)

namespace CounterList

variable {Value : Type} [DecidableEq Value]

def insertOrIncreaseCounter (item : Value) : CounterList Value → CounterList Value
  | [] => [(item, 1)]
  | (other, count) :: rest =>
      if other = item then (other, count + 1) :: rest
      else (other, count) :: insertOrIncreaseCounter item rest

variable (counters : CounterList Value) (item : Value)

def get : Option ℕ :=
  (counters.find? fun entry ↦ entry.1 = item).map fun entry ↦ entry.2

def getSumCounters : ℕ := (counters.map fun entry ↦ entry.2).sum

/-- How often the item has been counted. -/
def count : ℕ := (get counters item).getD 0

@[simp] theorem count_nil : count [] item = 0 := rfl

theorem get_cons (entry : Value × ℕ) (rest : CounterList Value) (item : Value) :
    get (entry :: rest) item = if entry.1 = item then some entry.2 else get rest item := by
  by_cases hentry : entry.1 = item <;> simp [get, hentry]

theorem get_insert_self :
    get (insertOrIncreaseCounter item counters) item = some (count counters item + 1) := by
  induction counters with
  | nil => simp [insertOrIncreaseCounter, get]
  | cons entry _ ih =>
    unfold insertOrIncreaseCounter count
    by_cases hentry : entry.1 = item
    · simp [get_cons, hentry]
    · simp only [hentry, if_false, get_cons]
      exact ih

theorem count_insert_self :
    count (insertOrIncreaseCounter item counters) item = count counters item + 1 := by
  rw [count, get_insert_self, Option.getD_some]

theorem count_insert_of_ne {item other} (hne : item ≠ other) :
    count (insertOrIncreaseCounter item counters) other = count counters other := by
  induction counters with
  | nil => simp [insertOrIncreaseCounter, count, get, hne]
  | cons entry _ ih =>
    unfold insertOrIncreaseCounter
    by_cases hentry : entry.1 = item
    · have hother : entry.1 ≠ other := hentry ▸ hne
      simp [count, get_cons, hentry, hne]
    · simp only [hentry, if_false, count, get_cons] at ih ⊢
      split_ifs
      · rfl
      · exact ih

theorem sum_insert :
    getSumCounters (insertOrIncreaseCounter item counters) = getSumCounters counters + 1 := by
  induction counters with
  | nil => rfl
  | cons _ _ ih =>
    unfold insertOrIncreaseCounter
    unfold getSumCounters at ih ⊢
    split_ifs
    · simp only [List.map_cons, List.sum_cons]
      omega
    · simp only [List.map_cons, List.sum_cons, ih]
      omega

/-- The count of an item is that of an entry. -/
theorem exists_mem_of_count_pos {counters : CounterList Value} {item : Value}
    (hpositive : 0 < count counters item) : ∃ entry ∈ counters, entry.2 = count counters item := by
  unfold count get at hpositive ⊢
  cases hfound : counters.find? fun entry ↦ entry.1 = item with
  | none => simp [hfound] at hpositive
  | some entry => exact ⟨entry, List.mem_of_find?_eq_some hfound, by simp⟩

/-- Once something has been counted, some entry has at least the count of any given item. -/
theorem exists_count_le (counted item : Value) :
    ∃ entry ∈ insertOrIncreaseCounter counted counters,
      count (insertOrIncreaseCounter counted counters) item ≤ entry.2 := by
  by_cases hpositive : 0 < count (insertOrIncreaseCounter counted counters) item
  · obtain ⟨entry, hmem, hcount⟩ := exists_mem_of_count_pos hpositive
    exact ⟨entry, hmem, hcount.ge⟩
  · have hcounted : 0 < count (insertOrIncreaseCounter counted counters) counted := by
      rw [count_insert_self]
      exact Nat.succ_pos _
    obtain ⟨entry, hmem, -⟩ := exists_mem_of_count_pos hcounted
    exact ⟨entry, hmem, by omega⟩

end CounterList

section Tally

variable {Voter Value : Type} [DecidableEq Value]

/-- The counters count one vote of each of the voters, for a value it supports. -/
def Tallies (counters : CounterList Value) (counted : Finset Voter)
    (supports : Value → Voter → Prop) : Prop :=
  ∃ ballot : Voter → Value, (∀ voter ∈ counted, supports (ballot voter) voter) ∧
    (∀ value, counters.count value = (counted.filter fun voter ↦ ballot voter = value).card) ∧
    counters.getSumCounters = counted.card

namespace Tallies

variable {counters : CounterList Value} {counted : Finset Voter} {supports : Value → Voter → Prop}

theorem empty (value : Value) : Tallies ([] : CounterList Value) (∅ : Finset Voter) supports :=
  ⟨fun _ ↦ value, by simp, by simp, rfl⟩

section

variable (htallies : Tallies counters counted supports)
include htallies

theorem mono {wider : Value → Voter → Prop}
    (hwider : ∀ value voter, supports value voter → wider value voter) :
    Tallies counters counted wider := by
  obtain ⟨ballot, hsupports, hcount⟩ := htallies
  exact ⟨ballot, fun voter hvoter ↦ hwider _ _ (hsupports voter hvoter), hcount⟩

/-- One more vote of a voter that has not been counted. -/
theorem insert [DecidableEq Voter] {value voter} (hfresh : voter ∉ counted)
    (hvoter : supports value voter) :
    Tallies (counters.insertOrIncreaseCounter value) (insert voter counted) supports := by
  obtain ⟨ballot, hsupports, hcount, hsum⟩ := htallies
  have hother : ∀ other ∈ counted, Function.update ballot voter value other = ballot other := by
    intro _ hmem
    refine Function.update_of_ne ?_ _ _
    rintro rfl
    exact hfresh hmem
  refine ⟨Function.update ballot voter value, ?_, ?_, ?_⟩
  · intro other hmem
    rcases Finset.mem_insert.mp hmem with rfl | hcounted
    · simpa using hvoter
    · rw [hother other hcounted]
      exact hsupports other hcounted
  · intro item
    have hold : (counted.filter fun other ↦ Function.update ballot voter value other = item) =
        counted.filter fun other ↦ ballot other = item :=
      Finset.filter_congr fun other hmem ↦ by rw [hother other hmem]
    rw [Finset.filter_insert, Function.update_self, hold]
    by_cases hitem : value = item
    · have hnotMem : voter ∉ counted.filter fun other ↦ ballot other = item :=
        fun hmem ↦ hfresh (Finset.mem_filter.mp hmem).1
      rw [if_pos hitem, Finset.card_insert_of_notMem hnotMem, ← hcount item, ← hitem,
        CounterList.count_insert_self]
    · rw [if_neg hitem, CounterList.count_insert_of_ne _ hitem, hcount item]
  · rw [CounterList.sum_insert, Finset.card_insert_of_notMem hfresh, hsum]

/-- A value has been counted at most as often as there are voters that support it. -/
theorem count_le (value : Value) {voters : Finset Voter}
    (hvoters : ∀ voter ∈ counted, supports value voter → voter ∈ voters) :
    counters.count value ≤ voters.card := by
  obtain ⟨_, hsupports, hcount, -⟩ := htallies
  rw [hcount value]
  refine Finset.card_le_card fun voter hmem ↦ ?_
  obtain ⟨hcounted, hballot⟩ := Finset.mem_filter.mp hmem
  exact hvoters voter hcounted (hballot ▸ hsupports voter hcounted)

theorem sum_eq : counters.getSumCounters = counted.card := by
  obtain ⟨-, -, -, hsum⟩ := htallies
  exact hsum

/-- If every voter that is not faulty supports one value only, the votes for it are all but those of
faulty voters. -/
theorem sum_le {value : Value} {faulty : Finset Voter}
    (honly : ∀ other voter, voter ∉ faulty → supports other voter → other = value) :
    counters.getSumCounters ≤ counters.count value + faulty.card := by
  obtain ⟨ballot, hsupports, hcount, hsum⟩ := htallies
  rw [hcount value, hsum, ← Finset.card_filter_add_card_filter_not fun voter ↦ ballot voter = value]
  refine Nat.add_le_add_left (Finset.card_le_card fun voter hmem ↦ ?_) _
  obtain ⟨hcounted, hballot⟩ := Finset.mem_filter.mp hmem
  by_contra hnotFaulty
  exact hballot (honly _ voter hnotFaulty (hsupports voter hcounted))

end

end Tallies

end Tally

/-- Two quorums have a voter in common that is not faulty. -/
theorem exists_common_notMem {Voter : Type} [DecidableEq Voter]
    {voters first second faulty : Finset Voter} {bound : ℕ} (hfirst : first ⊆ voters)
    (hsecond : second ⊆ voters) (hfaulty : faulty.card ≤ bound)
    (hfirstCard : voters.card + bound < 2 * first.card)
    (hsecondCard : voters.card + bound < 2 * second.card) :
    ∃ voter ∈ first, voter ∈ second ∧ voter ∉ faulty := by
  have hunion : (first ∪ second).card ≤ voters.card :=
    Finset.card_le_card (Finset.union_subset hfirst hsecond)
  have hsum := Finset.card_inter_add_card_union first second
  have hlt : faulty.card < (first ∩ second).card := by omega
  obtain ⟨voter, hvoter, hnotFaulty⟩ := Finset.exists_mem_notMem_of_card_lt_card hlt
  exact ⟨voter, (Finset.mem_inter.mp hvoter).1, (Finset.mem_inter.mp hvoter).2, hnotFaulty⟩

end NearMpc.Library
