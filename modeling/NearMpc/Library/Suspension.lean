import Mathlib.Data.List.Nodup
import Mathlib.Logic.Function.Basic

/-!
# Suspended computations

A program suspends computations and keeps each under a key, from where it is resumed or dropped. The
host numbers the computations in the order in which they are suspended. A computation that is
suspended under a key in use takes the place of the one that waits there, which is then out of
reach.

`Suspensions.Sound` ties the number that waits under a key to the key it was suspended under. It
holds in every state that is reached from an empty table, and from it follow the two properties of
such a table: a computation is only resumed under its own key (`Sound.resumedBy_key`), and at most
once (`resumed_nodup`).
-/

set_option autoImplicit false

namespace NearMpc.Library

/-- The keys of all computations suspended so far, and the number that waits under each key. -/
structure Suspensions (Key : Type) where
  created : List Key
  waiting : Key → Option ℕ

inductive SuspensionAction (Key : Type) where
  | suspend (key : Key)
  | resume (key : Key)
  | drop (key : Key)

namespace Suspensions

variable {Key : Type}

variable (table : Suspensions Key)

/-- The computation that an action resumes. -/
def resumedBy : SuspensionAction Key → Option ℕ
  | .resume key => table.waiting key
  | _ => none

/-- What waits under a key was suspended under it. -/
def Sound : Prop :=
  ∀ key number, table.waiting key = some number → table.created[number]? = some key

variable {table : Suspensions Key} {action : SuspensionAction Key} {number : ℕ}

/-- A computation is resumed under the key it was suspended under. -/
theorem Sound.resumedBy_key (hsound : table.Sound)
    (hresumed : table.resumedBy action = some number) :
    ∃ key, action = .resume key ∧ table.created[number]? = some key := by
  cases action with
  | resume key => exact ⟨key, rfl, hsound key number hresumed⟩
  | suspend => cases hresumed
  | drop => cases hresumed

variable [DecidableEq Key]

def step (table : Suspensions Key) : SuspensionAction Key → Suspensions Key
  | .suspend key =>
      { created := table.created ++ [key]
        waiting := Function.update table.waiting key (some table.created.length) }
  | .resume key => { table with waiting := Function.update table.waiting key none }
  | .drop key => { table with waiting := Function.update table.waiting key none }

/-- The computations that are resumed, oldest first. -/
def resumed : Suspensions Key → List (SuspensionAction Key) → List ℕ
  | _, [] => []
  | table, action :: rest => (table.resumedBy action).toList ++ resumed (table.step action) rest

/-- Clearing a key keeps what waits elsewhere. -/
theorem waiting_of_cleared {cleared key}
    (hwaiting : Function.update table.waiting cleared none key = some number) :
    key ≠ cleared ∧ table.waiting key = some number := by
  by_cases hkey : key = cleared
  · rw [hkey, Function.update_self] at hwaiting
    cases hwaiting
  · rw [Function.update_of_ne hkey] at hwaiting
    exact ⟨hkey, hwaiting⟩

/-- After an action a computation waits where it did before, or has just been suspended. -/
theorem waiting_step {key} (hwaiting : (table.step action).waiting key = some number) :
    table.waiting key = some number ∨ action = .suspend key ∧ number = table.created.length := by
  cases action with
  | suspend suspended =>
    by_cases hkey : key = suspended
    · subst hkey
      simp only [step, Function.update_self, Option.some.injEq] at hwaiting
      exact .inr ⟨rfl, hwaiting.symm⟩
    · simp only [step, Function.update_of_ne hkey] at hwaiting
      exact .inl hwaiting
  | resume | drop => exact .inl (waiting_of_cleared hwaiting).2

theorem created_prefix_step (table : Suspensions Key) (action : SuspensionAction Key) :
    table.created <+: (table.step action).created := by
  cases action with
  | suspend => exact List.prefix_append _ _
  | resume | drop => exact List.prefix_refl _

theorem Sound.step (hsound : table.Sound) (action : SuspensionAction Key) :
    (table.step action).Sound := by
  intro key number hwaiting
  rcases waiting_step hwaiting with hbefore | ⟨rfl, rfl⟩
  · obtain ⟨_, hadded⟩ := table.created_prefix_step action
    have hcreated := hsound key number hbefore
    obtain ⟨hlt, -⟩ := List.getElem?_eq_some_iff.mp hcreated
    rw [← hadded, List.getElem?_append_left hlt]
    exact hcreated
  · simp [Suspensions.step]

/-- A resumed computation no longer waits, and cannot be suspended again. -/
theorem Sound.not_waiting_after (hsound : table.Sound)
    (hresumed : table.resumedBy action = some number) :
    (∀ key, (table.step action).waiting key ≠ some number) ∧
      number < (table.step action).created.length := by
  obtain ⟨_, rfl, hcreated⟩ := hsound.resumedBy_key hresumed
  refine ⟨fun other hother ↦ ?_, (List.getElem?_eq_some_iff.mp hcreated).choose⟩
  obtain ⟨hne, hwaiting⟩ := waiting_of_cleared hother
  have hsame := (hsound other number hwaiting).symm.trans hcreated
  exact hne (Option.some_inj.mp hsame)

/-- What is resumed later waits already or is yet to be suspended; nothing is resumed twice. -/
theorem resumed_nodup (hsound : table.Sound) (actions : List (SuspensionAction Key)) :
    (table.resumed actions).Nodup ∧
      ∀ number ∈ table.resumed actions,
        (∃ key, table.waiting key = some number) ∨ table.created.length ≤ number := by
  induction actions generalizing table with
  | nil => exact ⟨List.nodup_nil, fun _ hmem ↦ absurd hmem List.not_mem_nil⟩
  | cons action rest ih =>
    obtain ⟨hnodup, hlater⟩ := ih (hsound.step action)
    have hbefore : ∀ number ∈ (table.step action).resumed rest,
        (∃ key, table.waiting key = some number) ∨ table.created.length ≤ number := by
      intro number hmem
      rcases hlater number hmem with ⟨key, hwaiting⟩ | hnew
      · rcases waiting_step hwaiting with hwaited | ⟨-, rfl⟩
        · exact .inl ⟨key, hwaited⟩
        · exact .inr (Nat.le_refl _)
      · exact .inr (Nat.le_trans (table.created_prefix_step action).length_le hnew)
    simp only [resumed]
    cases hresumed : table.resumedBy action with
    | none => exact ⟨hnodup, hbefore⟩
    | some number =>
      obtain ⟨hgone, hold⟩ := hsound.not_waiting_after hresumed
      have hfresh : number ∉ (table.step action).resumed rest := by
        intro hmem
        rcases hlater number hmem with ⟨key, hwaiting⟩ | hnew
        · exact hgone key hwaiting
        · exact absurd hold (Nat.not_lt.mpr hnew)
      refine ⟨List.nodup_cons.mpr ⟨hfresh, hnodup⟩, ?_⟩
      intro other hmem
      rcases List.mem_cons.mp hmem with rfl | hrest
      · obtain ⟨key, rfl, -⟩ := hsound.resumedBy_key hresumed
        exact .inl ⟨key, hresumed⟩
      · exact hbefore other hrest

end Suspensions

end NearMpc.Library
