import Mathlib.Data.List.Induction
import Mathlib.Logic.Function.Basic

/-!
# Sequences of stores

What an array holds after a list of stores: at each index the last value stored
there, or what it held before.
-/

namespace SecureGateway.Library

variable {α : Type*}

/-- Perform the stores in order. -/
def applyStores (cells : Nat → α) (stores : List (Nat × α)) : Nat → α :=
  stores.foldl (fun cells s => Function.update cells s.1 s.2) cells

/-- The last value stored at an index, if any was. -/
def lastStore (stores : List (Nat × α)) (index : Nat) : Option α :=
  (stores.reverse.find? fun s => s.1 = index).map Prod.snd

@[simp] theorem applyStores_nil (cells : Nat → α) : applyStores cells [] = cells := rfl

theorem applyStores_append (cells : Nat → α) (stores more : List (Nat × α)) :
    applyStores cells (stores ++ more) = applyStores (applyStores cells stores) more := by
  simp [applyStores, List.foldl_append]

@[simp] theorem lastStore_nil (index : Nat) : lastStore ([] : List (Nat × α)) index = none := rfl

theorem lastStore_append_singleton (stores : List (Nat × α)) (j : Nat) (a : α) (index : Nat) :
    lastStore (stores ++ [(j, a)]) index =
      if j = index then some a else lastStore stores index := by
  by_cases h : j = index
  · simp [lastStore, h]
  · simp [lastStore, h]

theorem applyStores_apply (cells : Nat → α) (stores : List (Nat × α)) (index : Nat) :
    applyStores cells stores index = (lastStore stores index).getD (cells index) := by
  induction stores using List.reverseRecOn with
  | nil => rfl
  | append_singleton stores s ih =>
      rw [applyStores_append, lastStore_append_singleton]
      by_cases h : s.1 = index
      · simp [applyStores, h]
      · simp [applyStores, h, Ne.symm h, ← ih]

/-- Below a bound the stores leave the cells as they were exactly when the last store
at each index put back what was there. -/
theorem applyStores_eq_below_iff {cells : Nat → α} {stores : List (Nat × α)} {n : Nat} :
    (∀ j < n, applyStores cells stores j = cells j) ↔
      ∀ j < n, ∀ a, lastStore stores j = some a → a = cells j := by
  refine forall_congr' fun j => forall_congr' fun _ => ?_
  rw [applyStores_apply]
  cases lastStore stores j with
  | none => simp
  | some a => simp

/-! ### Whole chunks -/

/-- The cells with a chunk written over them from the first one on. -/
def overwrite (cells : Nat → α) (xs : List α) : Nat → α := fun j => xs.getD j (cells j)

/-- The chunk can be read back. -/
@[simp] theorem map_range_overwrite (cells : Nat → α) (xs : List α) :
    (List.range xs.length).map (overwrite cells xs) = xs := by
  apply List.ext_getElem
  · simp
  · intro j hj hj'
    simp [overwrite, hj']

/-- The cells from a cursor up to a length. -/
def remaining (cells : Nat → α) (cursor len : Nat) : List α :=
  ((List.range len).map cells).drop cursor

@[simp] theorem remaining_zero (cells : Nat → α) (len : Nat) :
    remaining cells 0 len = (List.range len).map cells := rfl

theorem remaining_eq_nil_iff {cells : Nat → α} {cursor len : Nat} :
    remaining cells cursor len = [] ↔ len ≤ cursor := by
  simp [remaining]

theorem remaining_eq_cons {cells : Nat → α} {cursor len : Nat} (h : cursor < len) :
    remaining cells cursor len = cells cursor :: remaining cells (cursor + 1) len := by
  have hlen : cursor < ((List.range len).map cells).length := by simpa using h
  rw [remaining, List.drop_eq_getElem_cons hlen]
  simp [remaining]

end SecureGateway.Library
