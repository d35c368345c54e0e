import Mathlib.Data.Multiset.Filter
import Mathlib.Data.Multiset.Fold
import Mathlib.Data.Multiset.UnionInter

/-!
# Requests in flight

Requests are posted to a pool and complete in any order. A request may hold a resource, a
buffer or a record, for as long as it is in flight. A pool is exclusive when no two of its
requests hold the same resource.
-/

namespace SecureGateway.Library

variable {R K : Type*} {hold : R → Option K} {pool : Multiset R}

/-- The resources the requests of a pool hold. -/
def held (hold : R → Option K) (pool : Multiset R) : Multiset K := pool.filterMap hold

@[simp] theorem held_zero : held hold (0 : Multiset R) = 0 := rfl

theorem mem_held {k : K} : k ∈ held hold pool ↔ ∃ r ∈ pool, hold r = some k :=
  Multiset.mem_filterMap hold pool

theorem held_cons_some {r : R} {k : K} (h : hold r = some k) :
    held hold (r ::ₘ pool) = k ::ₘ held hold pool :=
  Multiset.filterMap_cons_some hold r pool h

theorem held_cons_none {r : R} (h : hold r = none) : held hold (r ::ₘ pool) = held hold pool :=
  Multiset.filterMap_cons_none r pool h

@[simp] theorem held_add (more : Multiset R) :
    held hold (pool + more) = held hold pool + held hold more :=
  Multiset.filterMap_add hold pool more

section Completion

variable [DecidableEq R]

/-- A request that completes gives its resource back. -/
theorem held_erase_some {r : R} {k : K} (hr : r ∈ pool) (h : hold r = some k) :
    k ::ₘ held hold (pool.erase r) = held hold pool := by
  rw [← held_cons_some h, Multiset.cons_erase hr]

theorem held_erase_none {r : R} (hr : r ∈ pool) (h : hold r = none) :
    held hold (pool.erase r) = held hold pool := by
  rw [← held_cons_none h, Multiset.cons_erase hr]

/-- A request that takes over the resource of one that completes. -/
theorem held_repost {r r' : R} (hr : r ∈ pool) (h : hold r' = hold r) :
    held hold (r' ::ₘ pool.erase r) = held hold pool := by
  cases hk : hold r with
  | none => rw [held_cons_none (h.trans hk), held_erase_none hr hk]
  | some k => rw [held_cons_some (h.trans hk), held_erase_some hr hk]

end Completion

/-! ### Exclusive pools -/

/-- No two requests of the pool hold the same resource. -/
def Exclusive (hold : R → Option K) (pool : Multiset R) : Prop := (held hold pool).Nodup

theorem Exclusive.post {r : R} {k : K} (hpool : Exclusive hold pool) (h : hold r = some k)
    (hfree : k ∉ held hold pool) : Exclusive hold (r ::ₘ pool) := by
  rw [Exclusive, held_cons_some h]
  exact Multiset.nodup_cons.mpr ⟨hfree, hpool⟩

variable [DecidableEq R]

theorem Exclusive.complete (hpool : Exclusive hold pool) (r : R) :
    Exclusive hold (pool.erase r) :=
  Multiset.nodup_of_le (Multiset.filterMap_le_filterMap hold (Multiset.erase_le r pool)) hpool

/-- Nothing else holds the resource of a request that completes. -/
theorem Exclusive.released {r : R} {k : K} (hpool : Exclusive hold pool) (hr : r ∈ pool)
    (h : hold r = some k) : k ∉ held hold (pool.erase r) := by
  rw [Exclusive, ← held_erase_some hr h] at hpool
  exact (Multiset.nodup_cons.mp hpool).1

end SecureGateway.Library
