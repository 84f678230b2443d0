import Mathlib

/-!
# The database of the node

Columns of byte keys in lexicographic order. Follows `SecretDB` of `db.rs`.
-/

set_option autoImplicit false

namespace NearMpc.Node

open Std (TreeMap)

inductive DBCol where
  | triple
  | presignature
  | signRequest
  | ckdRequest
  | verifyForeignTxRequest
  | epochData
deriving DecidableEq, Repr

def DBCol.asStr : DBCol → String
  | triple => "triple"
  | presignature => "presignature"
  | signRequest => "sign_request"
  | ckdRequest => "ckd_request"
  | verifyForeignTxRequest => "verify_foreign_tx_request"
  | epochData => "epoch_id"

abbrev DBKey := List UInt8

structure SecretDB (Value : Type) where
  column : DBCol → TreeMap DBKey Value

namespace SecretDB

variable {Value : Type}

def empty : SecretDB Value where
  column := fun _ ↦ ∅

variable (self : SecretDB Value) (col : DBCol) (key : DBKey)

def get : Option Value :=
  (self.column col)[key]?

def put (value : Value) : SecretDB Value where
  column := Function.update self.column col ((self.column col).insert key value)

def delete : SecretDB Value where
  column := Function.update self.column col ((self.column col).erase key)

/-- The records with `start ≤ key < stop`, in key order. -/
def iterRange (start stop : DBKey) : List (DBKey × Value) :=
  (self.column col).toList.filter fun record ↦ decide (start ≤ record.1 ∧ record.1 < stop)

@[simp] theorem get_empty (col : DBCol) (key : DBKey) :
    (empty : SecretDB Value).get col key = none := by
  simp [get, empty]

@[simp] theorem get_put (key other : DBKey) (value : Value) :
    (self.put col key value).get col other =
      if key = other then some value else self.get col other := by
  simp [get, put, TreeMap.getElem?_insert]

@[simp] theorem get_delete (key other : DBKey) :
    (self.delete col key).get col other = if key = other then none else self.get col other := by
  simp [get, delete, TreeMap.getElem?_erase]

/-- Deleting the records of a list of ids. -/
theorem get_foldl_delete {Id : Type} (self : SecretDB Value) (col : DBCol) (keyOf : Id → DBKey)
    (ids : List Id) (key : DBKey) :
    (ids.foldl (fun db id ↦ db.delete col (keyOf id)) self).get col key =
      if key ∈ ids.map keyOf then none else self.get col key := by
  induction ids generalizing self with
  | nil => simp
  | cons _ rest ih =>
    rw [List.foldl_cons, ih, get_delete]
    by_cases hrest : key ∈ rest.map keyOf
    · simp only [hrest, List.map_cons, List.mem_cons, or_true, if_true]
    · simp only [hrest, List.map_cons, List.mem_cons, or_false, if_false, eq_comm]

theorem get_put_of_ne_col (self : SecretDB Value) {col otherCol} (hcol : col ≠ otherCol)
    (key other : DBKey) (value : Value) :
    (self.put col key value).get otherCol other = self.get otherCol other := by
  simp [get, put, Function.update_of_ne hcol.symm]

theorem get_delete_of_ne_col (self : SecretDB Value) {col otherCol} (hcol : col ≠ otherCol)
    (key other : DBKey) : (self.delete col key).get otherCol other = self.get otherCol other := by
  simp [get, delete, Function.update_of_ne hcol.symm]

theorem get_of_mem_iterRange {self : SecretDB Value} {col : DBCol} {start stop key : DBKey}
    {value : Value} (hmem : (key, value) ∈ self.iterRange col start stop) :
    self.get col key = some value := by
  simp only [iterRange, List.mem_filter] at hmem
  exact TreeMap.mem_toList_iff_getElem?_eq_some.mp hmem.1

/-- A range lists every key at most once. -/
theorem nodup_keys_iterRange (start stop : DBKey) :
    ((self.iterRange col start stop).map Prod.fst).Nodup := by
  have hdistinct := (self.column col).distinct_keys_toList
  have hnodup : ((self.column col).toList.map Prod.fst).Nodup := by
    refine List.pairwise_map.mpr (hdistinct.imp fun hne heq ↦ hne ?_)
    rw [heq]
    exact Std.ReflCmp.compare_self
  exact hnodup.sublist ((List.filter_sublist).map Prod.fst)

end SecretDB

/-- A serialisation of assets as database values. -/
structure Codec (Value T : Type) where
  toValue : T → Value
  fromValue : Value → Option T
  fromValue_toValue : ∀ asset, fromValue (toValue asset) = some asset

end NearMpc.Node
