import Mathlib.Algebra.BigOperators.Group.List.Basic

/-!
# Counters that lag behind

A thread first does something and then counts it, so that a counter, at any time, is the
total of all that happened but for what is still owed to it.
-/

namespace SecureGateway.Library

variable {α M : Type*} [AddMonoid M]

/-- The total of the weights. -/
def total (weight : α → M) (log : List α) : M := (log.map weight).sum

@[simp] theorem total_nil (weight : α → M) : total weight [] = 0 := rfl

@[simp] theorem total_append (weight : α → M) (log more : List α) :
    total weight (log ++ more) = total weight log + total weight more := by
  rw [total, List.map_append, List.sum_append, total, total]

@[simp] theorem total_singleton (weight : α → M) (x : α) : total weight [x] = weight x := by
  rw [total, List.map_singleton, List.sum_singleton]

/-- The value is the total of the log without what is still owed. -/
def Lags (weight : α → M) (log owed : List α) (value : M) : Prop :=
  ∃ counted, log = counted ++ owed ∧ value = total weight counted

variable {weight : α → M} {log owed : List α} {value : M}

theorem lags_start : Lags weight [] [] 0 := ⟨[], rfl, rfl⟩

/-- What happens is owed. -/
theorem Lags.happen (h : Lags weight log owed value) (new : List α) :
    Lags weight (log ++ new) (owed ++ new) value := by
  obtain ⟨counted, rfl, hvalue⟩ := h
  exact ⟨counted, by rw [List.append_assoc], hvalue⟩

/-- The first that is owed is counted. -/
theorem Lags.count {x : α} (h : Lags weight log (x :: owed) value) :
    Lags weight log owed (value + weight x) := by
  obtain ⟨counted, rfl, rfl⟩ := h
  refine ⟨counted ++ [x], by simp, ?_⟩
  rw [total_append, total_singleton]

/-- What is shown was the total at some time. -/
theorem Lags.exists_prefix (h : Lags weight log owed value) :
    ∃ counted, counted <+: log ∧ value = total weight counted := by
  obtain ⟨counted, rfl, hvalue⟩ := h
  exact ⟨counted, List.prefix_append _ _, hvalue⟩

/-- Where nothing is owed the value is the total. -/
theorem Lags.settled (h : Lags weight log [] value) : value = total weight log := by
  obtain ⟨counted, rfl, hvalue⟩ := h
  rw [List.append_nil, hvalue]

end SecureGateway.Library
