import SecureGateway.Library.Run
import SecureGateway.Library.Window

/-!
# Bounded queues that overwrite

A queue holds at most `capacity` entries. Appending never fails: what no longer fits
is dropped from the front. The traffic of a queue notes what was offered to it and
what was taken out.
-/

namespace SecureGateway.Library

variable {α : Type*}

/-- At most `capacity` entries, oldest first. -/
@[ext] structure BoundedQueue (α : Type*) where
  capacity : Nat
  items : List α
  length_le : items.length ≤ capacity

namespace BoundedQueue

/-- The queue of a capacity with nothing in it. -/
def empty (capacity : Nat) : BoundedQueue α where
  capacity := capacity
  items := []
  length_le := Nat.zero_le _

/-- Append the entries, dropping the oldest that no longer fit. -/
def append (q : BoundedQueue α) (xs : List α) : BoundedQueue α where
  capacity := q.capacity
  items := keepLast q.capacity (q.items ++ xs)
  length_le := by
    rw [length_keepLast]
    exact Nat.min_le_right _ _

/-- Remove the `n` oldest entries. -/
def drop (q : BoundedQueue α) (n : Nat) : BoundedQueue α where
  capacity := q.capacity
  items := q.items.drop n
  length_le := by
    rw [List.length_drop]
    exact Nat.le_trans (Nat.sub_le _ _) q.length_le

@[simp] theorem append_capacity (q : BoundedQueue α) (xs : List α) :
    (q.append xs).capacity = q.capacity := rfl

@[simp] theorem append_items (q : BoundedQueue α) (xs : List α) :
    (q.append xs).items = keepLast q.capacity (q.items ++ xs) := rfl

@[simp] theorem drop_items (q : BoundedQueue α) (n : Nat) :
    (q.drop n).items = q.items.drop n := rfl

end BoundedQueue

/-! ### Traffic -/

/-- A queue with what was offered to it and what was taken out so far. -/
@[ext] structure Traffic (α : Type*) where
  queue : BoundedQueue α
  offered : List α
  taken : List α

/-- What happens to a queue. -/
inductive Transfer (α : Type*)
  | offer (xs : List α)
  | take

variable (α) in
/-- Nothing has happened to the queue of a capacity. -/
def Traffic.start (capacity : Nat) : Traffic α := ⟨.empty capacity, [], []⟩

/-- One transfer; nothing can be taken out of an empty queue. -/
def Traffic.step (t : Traffic α) : Transfer α → Option (Traffic α)
  | .offer xs => some { t with queue := t.queue.append xs, offered := t.offered ++ xs }
  | .take =>
      match t.queue.items with
      | [] => none
      | x :: _ => some { t with queue := t.queue.drop 1, taken := t.taken ++ [x] }

theorem Traffic.step_cases {t u : Traffic α} {l : Transfer α} (h : t.step l = some u) :
    (∃ xs, l = .offer xs ∧
      u = { t with queue := t.queue.append xs, offered := t.offered ++ xs }) ∨
    (∃ x xs, l = .take ∧ t.queue.items = x :: xs ∧
      u = { t with queue := t.queue.drop 1, taken := t.taken ++ [x] }) := by
  cases l with
  | offer xs => exact Or.inl ⟨xs, rfl, by simpa [Traffic.step] using h.symm⟩
  | take =>
      cases hitems : t.queue.items with
      | nil => simp [Traffic.step, hitems] at h
      | cons x xs => exact Or.inr ⟨x, xs, rfl, rfl, by simpa [Traffic.step, hitems] using h.symm⟩

/-- What was taken and what remains are offered entries in the order they were offered:
only entries dropped from the front are missing. -/
theorem Traffic.sublist {capacity : Nat} {ls : List (Transfer α)} {t : Traffic α}
    (hrun : run Traffic.step (Traffic.start α capacity) ls = some t) :
    (t.taken ++ t.queue.items).Sublist t.offered := by
  have preserve (t : Traffic α) (l : Transfer α) (u : Traffic α)
      (hinv : (t.taken ++ t.queue.items).Sublist t.offered) (hstep : t.step l = some u) :
      (u.taken ++ u.queue.items).Sublist u.offered := by
    rcases Traffic.step_cases hstep with ⟨xs, -, rfl⟩ | ⟨x, xs, -, hitems, rfl⟩
    · have hkept : (t.queue.append xs).items.Sublist (t.queue.items ++ xs) :=
        List.drop_sublist _ _
      calc
        (t.taken ++ (t.queue.append xs).items).Sublist (t.taken ++ (t.queue.items ++ xs)) :=
          hkept.append_left _
        _ = t.taken ++ t.queue.items ++ xs := (List.append_assoc _ _ _).symm
        List.Sublist _ (t.offered ++ xs) := hinv.append_right _
    · simpa [hitems] using hinv
  apply run_invariant Traffic.step preserve _ hrun
  exact List.Sublist.refl []

/-- Every offer fits in the queue it meets. -/
def Traffic.Fits (t : Traffic α) : Transfer α → Prop
  | .offer xs => t.queue.items.length + xs.length ≤ t.queue.capacity
  | .take => True

/-- Where every offer fits nothing is lost. -/
theorem Traffic.lossless {capacity : Nat} {ls : List (Transfer α)} {t : Traffic α}
    (hfits : Along Traffic.step Traffic.Fits (Traffic.start α capacity) ls)
    (hrun : run Traffic.step (Traffic.start α capacity) ls = some t) :
    t.taken ++ t.queue.items = t.offered := by
  have preserve (t : Traffic α) (l : Transfer α) (_ : l ∈ ls) (u : Traffic α)
      (hinv : t.taken ++ t.queue.items = t.offered) (hfit : t.Fits l)
      (hstep : t.step l = some u) : u.taken ++ u.queue.items = u.offered := by
    rcases Traffic.step_cases hstep with ⟨xs, rfl, rfl⟩ | ⟨x, xs, rfl, hitems, rfl⟩
    · have hkept : keepLast t.queue.capacity (t.queue.items ++ xs) = t.queue.items ++ xs :=
        keepLast_append_eq_iff.mpr hfit
      change t.taken ++ keepLast _ _ = _
      rw [hkept, ← List.append_assoc, hinv]
    · simpa [hitems] using hinv
  apply run_invariant_along Traffic.step _ preserve rfl hfits hrun

end SecureGateway.Library
