import Mathlib

/-!
# Tables of items that know their key

A hash map whose values determine the key they are stored under, as a list of items with distinct
keys. The order of the list stands for the order in which such a map happens to be iterated.

Each operation has one lemma that says what is found under a key afterwards.
-/

set_option autoImplicit false

namespace NearMpc.Library

variable {Key Item : Type} [DecidableEq Key]

/-- Items with distinct keys. -/
structure KeyedTable {Key Item : Type} (key : Item → Key) where
  items : List Item
  distinct : (items.map key).Nodup

namespace KeyedTable

variable {key : Item → Key}

def empty : KeyedTable key where
  items := []
  distinct := List.nodup_nil

variable (table : KeyedTable key)

def get? (wanted : Key) : Option Item :=
  table.items.find? fun item ↦ key item = wanted

def remove (unwanted : Key) : KeyedTable key where
  items := table.items.filter fun item ↦ key item ≠ unwanted
  distinct := table.distinct.sublist (List.filter_sublist.map key)

/-- Inserts the item unless its key is taken. -/
def orInsert (item : Item) : KeyedTable key :=
  if htaken : key item ∈ table.items.map key then table
  else
    { items := table.items ++ [item]
      distinct := by
        rw [List.map_append, List.map_singleton]
        exact List.nodup_append.mpr ⟨table.distinct, List.nodup_singleton _, fun first hfirst
          second hsecond ↦ by rintro rfl; exact htaken (List.mem_singleton.mp hsecond ▸ hfirst)⟩ }

variable (change : Item → Option Item)

/-- Changes every item or drops it; a changed item stays under its key. -/
def update (hkey : ∀ item next, change item = some next → key next = key item) :
    KeyedTable key where
  items := table.items.filterMap change
  distinct := by
    have hpairs := List.pairwise_map.mp table.distinct
    refine List.pairwise_map.mpr (List.pairwise_filterMap.mpr (hpairs.imp ?_))
    intro first second hne next hnext other hother
    rwa [hkey first next hnext, hkey second other hother]

theorem get?_eq_none_iff {table : KeyedTable key} {wanted : Key} :
    table.get? wanted = none ↔ ∀ item ∈ table.items, key item ≠ wanted := by
  simp [get?]

theorem get?_eq_some_iff {table : KeyedTable key} {wanted : Key} {item : Item} :
    table.get? wanted = some item ↔ item ∈ table.items ∧ key item = wanted := by
  constructor
  · intro hfound
    exact ⟨List.mem_of_find?_eq_some hfound, by simpa using List.find?_some hfound⟩
  · rintro ⟨hmem, rfl⟩
    cases hfound : table.get? (key item) with
    | none => exact absurd rfl (get?_eq_none_iff.mp hfound item hmem)
    | some other =>
      have hother : other ∈ table.items := List.mem_of_find?_eq_some hfound
      have hkey : key other = key item := by simpa using List.find?_some hfound
      rw [List.inj_on_of_nodup_map table.distinct hother hmem hkey]

theorem get?_remove (unwanted wanted : Key) :
    (table.remove unwanted).get? wanted =
      if wanted = unwanted then none else table.get? wanted := by
  ext item
  rw [get?_eq_some_iff]
  split_ifs with hsame
  · subst hsame
    simp [remove]
  · rw [get?_eq_some_iff, remove, List.mem_filter]
    constructor
    · exact fun ⟨⟨hmem, _⟩, hkey⟩ ↦ ⟨hmem, hkey⟩
    · rintro ⟨hmem, rfl⟩
      exact ⟨⟨hmem, by simpa using hsame⟩, rfl⟩

theorem get?_orInsert (item : Item) (wanted : Key) :
    (table.orInsert item).get? wanted =
      if wanted = key item then some ((table.get? wanted).getD item) else table.get? wanted := by
  unfold orInsert
  split_ifs with htaken hsame hsame
  · obtain ⟨_, hother, hkey⟩ := List.mem_map.mp htaken
    rw [get?_eq_some_iff.mpr ⟨hother, hkey.trans hsame.symm⟩]
    rfl
  · rfl
  · have hnone : table.get? wanted = none := by
      rw [get?_eq_none_iff, hsame]
      exact fun other hother hkey ↦ htaken (List.mem_map.mpr ⟨other, hother, hkey⟩)
    rw [hnone, get?_eq_some_iff]
    exact ⟨List.mem_append_right _ (List.mem_singleton_self item), hsame.symm⟩
  · have hne : key item ≠ wanted := fun hkey ↦ hsame hkey.symm
    simp [get?, List.find?_append, hne]

theorem get?_update (hkey : ∀ item next, change item = some next → key next = key item)
    (wanted : Key) : (table.update change hkey).get? wanted = (table.get? wanted).bind change := by
  ext next
  rw [get?_eq_some_iff, update, List.mem_filterMap, Option.bind_eq_some_iff]
  constructor
  · rintro ⟨⟨item, hmem, hchange⟩, rfl⟩
    exact ⟨item, get?_eq_some_iff.mpr ⟨hmem, (hkey item next hchange).symm⟩, hchange⟩
  · rintro ⟨item, hfound, hchange⟩
    obtain ⟨hmem, rfl⟩ := get?_eq_some_iff.mp hfound
    exact ⟨⟨item, hmem, hchange⟩, hkey item next hchange⟩

end KeyedTable

end NearMpc.Library
