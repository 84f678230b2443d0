import Mathlib

/-!
# Bounded caches

An `LruCache` is an implementation of a cache that may evict an entry when another one is pushed.
The fields that are propositions are the contract of the operations: a push adds its entry and
removes exactly the entry that it returns, a pop takes out the entry of its key, and an entry is
changed in place. Which entry is evicted, and when, is left open.

`LruCache.bounded` meets the contract: it evicts the least recently pushed entry when there is no
room.
-/

set_option autoImplicit false

namespace NearMpc.Library

/-- The operations of a cache, and their contract. -/
structure LruCache (Key Value : Type) where
  Cache : Type
  empty : Cache
  get? : Cache → Key → Option Value
  /-- Adds an entry. The result is the entry that had to go: the old entry of the key, or the one
  evicted for lack of room. -/
  push : Cache → Key → Value → Cache × Option (Key × Value)
  /-- Takes the entry of the key out of the cache. -/
  pop : Cache → Key → Cache × Option Value
  /-- The entry of the key is changed by its owner. -/
  adjust : Cache → Key → (Value → Value) → Cache
  get?_empty : ∀ key, get? empty key = none
  get?_push : ∀ cache key value other result, get? (push cache key value).1 other = some result ↔
    (other = key ∧ result = value) ∨ (other ≠ key ∧ get? cache other = some result ∧
      ∀ entry ∈ (push cache key value).2, entry.1 ≠ other)
  get?_of_mem_push : ∀ cache key value, ∀ entry ∈ (push cache key value).2,
    get? cache entry.1 = some entry.2
  pop_snd : ∀ cache key, (pop cache key).2 = get? cache key
  get?_pop : ∀ cache key other result, get? (pop cache key).1 other = some result ↔
    other ≠ key ∧ get? cache other = some result
  pop_fst_of_none : ∀ cache key, get? cache key = none → (pop cache key).1 = cache
  get?_adjust_self : ∀ cache key change,
    get? (adjust cache key change) key = (get? cache key).map change
  get?_adjust_of_ne : ∀ cache key change other, other ≠ key →
    get? (adjust cache key change) other = get? cache other

namespace LruCache

/-- The values by key, and the keys in the order in which they were pushed. -/
structure Ordered (Key Value : Type) where
  order : List Key
  values : Key → Option Value

variable {Key Value : Type} [DecidableEq Key]

/-- The entry that has to go for a new one. -/
def Ordered.outgoing (capacity : ℕ) (cache : Ordered Key Value) (key : Key) :
    Option (Key × Value) :=
  match cache.values key with
  | some value => some (key, value)
  | none =>
      if capacity ≤ cache.order.length then
        cache.order.head?.bind fun oldest ↦ (cache.values oldest).map (oldest, ·)
      else none

/-- A cache that evicts the least recently pushed entry when there is no room. -/
def bounded (Key Value : Type) [DecidableEq Key] (capacity : ℕ) : LruCache Key Value where
  Cache := Ordered Key Value
  empty := ⟨[], fun _ ↦ none⟩
  get? := Ordered.values
  push := fun cache key value ↦
    (⟨cache.order.filter (fun other ↦ other ≠ key ∧
        (cache.outgoing capacity key).all (·.1 ≠ other)) ++ [key],
      fun other ↦ if other = key then some value
        else if (cache.outgoing capacity key).any (·.1 = other) then none
        else cache.values other⟩, cache.outgoing capacity key)
  pop := fun cache key ↦
    match cache.values key with
    | some value =>
        (⟨cache.order.filter (· ≠ key), Function.update cache.values key none⟩, some value)
    | none => (cache, none)
  adjust := fun cache key change ↦
    { cache with values := Function.update cache.values key ((cache.values key).map change) }
  get?_empty := fun _ ↦ rfl
  get?_push := by
    intro cache key value other result
    by_cases hother : other = key
    · simp [hother, eq_comm]
    · rcases cache.outgoing capacity key with - | entry
      · simp [hother]
      · by_cases hgone : entry.1 = other <;> simp [hother, hgone]
  get?_of_mem_push := by
    intro cache key value entry hentry
    simp only [Ordered.outgoing, Option.mem_def] at hentry
    split at hentry
    next hvalue =>
      cases hentry
      exact hvalue
    next =>
      split_ifs at hentry
      obtain ⟨oldest, -, hmap⟩ := Option.bind_eq_some_iff.mp hentry
      obtain ⟨_, hvalue, rfl⟩ := Option.map_eq_some_iff.mp hmap
      exact hvalue
  pop_snd := by
    intro cache key
    cases cache.values key <;> rfl
  get?_pop := by
    intro cache key other result
    by_cases hother : other = key <;> cases hvalue : cache.values key <;> simp [hother, hvalue]
  pop_fst_of_none := by
    intro cache key hnone
    simp [hnone]
  get?_adjust_self := by simp
  get?_adjust_of_ne := by
    intro cache key change other hother
    simp [hother]

end LruCache

end NearMpc.Library
