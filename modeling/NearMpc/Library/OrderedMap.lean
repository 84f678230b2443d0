import Mathlib

/-!
# Ordered maps built from lists

A map that is filled by a loop over a list holds, for each key, the value of the last item with that
key. The two facts that callers need are that every entry comes from an item, and that a key without
an entry has no item.

A count of entries is the number of the keys under which they are stored
(`exists_keys_of_countP`), and a map rebuilt from those of its entries that pass a filter holds what
it held under the keys it keeps (`getElem?_ofList_filter`).
-/

set_option autoImplicit false

namespace NearMpc.Library

open Std (TreeMap TransCmp LawfulEqCmp)

variable {Key Value Item : Type} {cmp : Key → Key → Ordering} {key : Item → Key}
  {value : Item → Value}

/-- The map after the loop `for item in items { map.insert(key(item), value(item)) }`. -/
def insertAll (key : Item → Key) (value : Item → Value) (items : List Item)
    (start : TreeMap Key Value cmp) : TreeMap Key Value cmp :=
  items.foldl (fun map item ↦ map.insert (key item) (value item)) start

theorem insertAll_cons (item : Item) (rest : List Item) (start : TreeMap Key Value cmp) :
    insertAll key value (item :: rest) start =
      insertAll key value rest (start.insert (key item) (value item)) := rfl

variable [TransCmp cmp] [LawfulEqCmp cmp] {items : List Item} {start : TreeMap Key Value cmp}
  {wanted : Key}

theorem getElem?_insertAll_eq_some {found}
    (hfound : (insertAll key value items start)[wanted]? = some found) :
    (∃ item ∈ items, key item = wanted ∧ value item = found) ∨ start[wanted]? = some found := by
  induction items generalizing start with
  | nil => exact .inr hfound
  | cons first _ ih =>
    rw [insertAll_cons] at hfound
    rcases ih hfound with ⟨item, hitem, hkey⟩ | hstart
    · exact .inl ⟨item, List.mem_cons_of_mem first hitem, hkey⟩
    · rw [TreeMap.getElem?_insert] at hstart
      by_cases hkey : cmp (key first) wanted = .eq
      · rw [if_pos hkey] at hstart
        exact .inl ⟨first, List.mem_cons_self, LawfulEqCmp.eq_of_compare hkey,
          Option.some_inj.mp hstart⟩
      · rw [if_neg hkey] at hstart
        exact .inr hstart

theorem getElem?_insertAll_eq_none (hnone : (insertAll key value items start)[wanted]? = none) :
    (∀ item ∈ items, key item ≠ wanted) ∧ start[wanted]? = none := by
  induction items generalizing start with
  | nil => exact ⟨by simp, hnone⟩
  | cons first _ ih =>
    rw [insertAll_cons] at hnone
    obtain ⟨hrest, hstart⟩ := ih hnone
    rw [TreeMap.getElem?_insert] at hstart
    by_cases hkey : cmp (key first) wanted = .eq
    · rw [if_pos hkey] at hstart
      cases hstart
    · rw [if_neg hkey] at hstart
      have hfirst : key first ≠ wanted := fun heq ↦ hkey (heq ▸ Std.ReflCmp.compare_self)
      exact ⟨List.forall_mem_cons.mpr ⟨hfirst, hrest⟩, hstart⟩

/-- As many keys as entries are counted. -/
theorem exists_keys_of_countP (map : TreeMap Key Value cmp) (counted : Key × Value → Bool) :
    ∃ keys : Finset Key, keys.card = map.toList.countP counted ∧
      ∀ key ∈ keys, ∃ value, map[key]? = some value ∧ counted (key, value) = true := by
  classical
  have hnodup : ((map.toList.filter counted).map Prod.fst).Nodup := by
    have hkeys : (map.toList.map Prod.fst).Nodup := by
      rw [TreeMap.map_fst_toList_eq_keys]
      exact TreeMap.nodup_keys
    exact hkeys.sublist (List.filter_sublist.map Prod.fst)
  refine ⟨((map.toList.filter counted).map Prod.fst).toFinset, ?_, ?_⟩
  · rw [List.toFinset_card_of_nodup hnodup, List.length_map, List.countP_eq_length_filter]
  · intro _ hkey
    simp only [List.mem_toFinset, List.mem_map, List.mem_filter] at hkey
    obtain ⟨entry, ⟨hentry, hcounted⟩, rfl⟩ := hkey
    exact ⟨entry.2, TreeMap.mem_toList_iff_getElem?_eq_some.mp hentry, hcounted⟩

/-- As many keys as entries with the value are counted. -/
theorem exists_keys_of_countP_eq [DecidableEq Value] (map : TreeMap Key Value cmp)
    (wanted : Value) :
    ∃ keys : Finset Key, keys.card = map.toList.countP (fun entry ↦ entry.2 == wanted) ∧
      ∀ key ∈ keys, map[key]? = some wanted := by
  obtain ⟨keys, hcard, hkeys⟩ := exists_keys_of_countP map fun entry ↦ entry.2 == wanted
  refine ⟨keys, hcard, fun key hkey ↦ ?_⟩
  obtain ⟨value, hvalue, hwanted⟩ := hkeys key hkey
  have hsame : value = wanted := eq_of_beq hwanted
  rw [hvalue, hsame]

/-- A map rebuilt from some of its entries. -/
theorem getElem?_ofList_filter [BEq Key] [LawfulBEq Key] {map : TreeMap Key Value cmp}
    {kept : Key × Value → Bool} {key : Key} {value : Value} :
    (TreeMap.ofList (map.toList.filter kept) cmp)[key]? = some value ↔
      map[key]? = some value ∧ kept (key, value) = true := by
  have hdistinct : (map.toList.filter kept).Pairwise
      fun first second ↦ ¬ cmp first.1 second.1 = .eq :=
    TreeMap.distinct_keys_toList.sublist List.filter_sublist
  have hmem : ∀ {found}, (key, found) ∈ map.toList.filter kept ↔
      map[key]? = some found ∧ kept (key, found) = true := by
    intro _
    rw [List.mem_filter, TreeMap.mem_toList_iff_getElem?_eq_some]
  rw [← hmem]
  constructor
  · intro hfound
    by_cases hcontains : ((map.toList.filter kept).map Prod.fst).contains key = true
    · obtain ⟨entry, hentry, rfl⟩ := List.mem_map.mp (List.contains_iff_mem.mp hcontains)
      have hstored := TreeMap.getElem?_ofList_of_mem Std.ReflCmp.compare_self hdistinct hentry
      obtain rfl : entry.2 = value := Option.some_inj.mp (hstored.symm.trans hfound)
      exact hentry
    · rw [TreeMap.getElem?_ofList_of_contains_eq_false (Bool.not_eq_true _ ▸ hcontains)] at hfound
      cases hfound
  · exact TreeMap.getElem?_ofList_of_mem Std.ReflCmp.compare_self hdistinct

end NearMpc.Library
