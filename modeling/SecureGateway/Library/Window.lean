import Mathlib.Logic.Function.Basic

/-!
# Cyclic windows and bounded lists

The window of `n` cells from `start` reads a store of cells cyclically modulo
`max`. A bounded overwriting queue over a window keeps the last `max` entries of
what was appended.
-/

namespace SecureGateway.Library

variable {α : Type*}

/-- The last `n` entries of a list. -/
def keepLast (n : Nat) (xs : List α) : List α := xs.drop (xs.length - n)

theorem length_keepLast (n : Nat) (xs : List α) :
    (keepLast n xs).length = min xs.length n := by
  simp only [keepLast, List.length_drop]
  omega

theorem keepLast_of_length_le {n : Nat} {xs : List α} (h : xs.length ≤ n) :
    keepLast n xs = xs := by
  simp [keepLast, Nat.sub_eq_zero_of_le h]

/-- Dropping from the front early does not change which last entries remain. -/
theorem keepLast_keepLast_append (n : Nat) (xs ys : List α) :
    keepLast n (keepLast n xs ++ ys) = keepLast n (xs ++ ys) := by
  have hlen : (keepLast n xs ++ ys).length - n = (xs ++ ys).length - n - (xs.length - n) := by
    simp only [List.length_append, length_keepLast]
    omega
  have hle : xs.length - n ≤ (xs ++ ys).length - n := by
    simp only [List.length_append]
    omega
  have hdrop : keepLast n xs ++ ys = (xs ++ ys).drop (xs.length - n) :=
    (List.drop_append_of_le_length (Nat.sub_le _ _)).symm
  calc
    keepLast n (keepLast n xs ++ ys)
        = ((xs ++ ys).drop (xs.length - n)).drop ((xs ++ ys).length - n - (xs.length - n)) := by
      rw [keepLast, hlen, hdrop]
    _ = (xs ++ ys).drop ((xs ++ ys).length - n) := by
      rw [List.drop_drop, Nat.add_sub_cancel' hle]
    _ = keepLast n (xs ++ ys) := rfl

/-- Appending one entry to a list that is full drops the oldest. -/
theorem keepLast_append_singleton {n : Nat} {xs : List α} (hpos : 0 < n) (hlen : xs.length = n)
    (x : α) : keepLast n (xs ++ [x]) = xs.drop 1 ++ [x] := by
  have hover : (xs ++ [x]).length - n = 1 := by
    rw [List.length_append, List.length_singleton, hlen, Nat.add_sub_cancel_left]
  rw [keepLast, hover, List.drop_append_of_le_length (by omega)]

/-- Appending keeps every earlier entry exactly when the result fits. -/
theorem keepLast_append_eq_iff {n : Nat} {xs ys : List α} :
    keepLast n (xs ++ ys) = xs ++ ys ↔ xs.length + ys.length ≤ n := by
  constructor
  · intro h
    have hlen := congrArg List.length h
    rw [length_keepLast, List.length_append] at hlen
    omega
  · intro h
    exact keepLast_of_length_le (by simpa using h)

/-- The cells `start, start + 1, ..` read cyclically modulo `max`. -/
def window (cells : Nat → α) (max start n : Nat) : List α :=
  (List.range n).map fun i => cells ((start + i) % max)

@[simp] theorem window_zero (cells : Nat → α) (max start : Nat) :
    window cells max start 0 = [] := rfl

@[simp] theorem length_window (cells : Nat → α) (max start n : Nat) :
    (window cells max start n).length = n := by
  simp [window]

theorem window_succ (cells : Nat → α) (max start n : Nat) :
    window cells max start (n + 1) =
      window cells max start n ++ [cells ((start + n) % max)] := by
  simp [window, List.range_succ]

theorem window_succ_cons (cells : Nat → α) (max start n : Nat) :
    window cells max start (n + 1) =
      cells (start % max) :: window cells max ((start + 1) % max) n := by
  simp only [window, List.range_succ_eq_map, List.map_cons, List.map_map, Nat.add_zero]
  congr 1
  apply List.map_congr_left
  intro i _
  simp only [Function.comp_apply, Nat.mod_add_mod]
  congr 2
  omega

/-- Two stores show the same window exactly when they agree on each of its cells. -/
theorem window_eq_iff {cells cells' : Nat → α} {max start n : Nat} :
    window cells max start n = window cells' max start n ↔
      ∀ i < n, cells ((start + i) % max) = cells' ((start + i) % max) := by
  simp [window]

/-- Distinct offsets within one revolution denote distinct cells. -/
theorem cyclic_ne {max start i j : Nat} (hij : i < j) (hj : j < i + max) :
    (start + i) % max ≠ (start + j) % max := by
  intro heq
  have hdvd : max ∣ (start + j) - (start + i) :=
    Nat.dvd_of_mod_eq_zero (Nat.sub_mod_eq_zero_of_mod_eq heq.symm)
  have hle : max ≤ (start + j) - (start + i) := Nat.le_of_dvd (by omega) hdvd
  omega

/-- Storing into the cell after the window leaves the window as it was. -/
theorem window_update_next (cells : Nat → α) {max start n : Nat} (h : n < max) (b : α) :
    window (Function.update cells ((start + n) % max) b) max start n =
      window cells max start n := by
  rw [window_eq_iff]
  intro i hi
  have hne : (start + i) % max ≠ (start + n) % max := cyclic_ne hi (by omega)
  exact Function.update_of_ne hne b cells

/-- Storing into the cell after the window and widening appends the value. -/
theorem window_update_append (cells : Nat → α) {max start n : Nat} (h : n < max) (b : α) :
    window (Function.update cells ((start + n) % max) b) max start (n + 1) =
      window cells max start n ++ [b] := by
  rw [window_succ, window_update_next cells h, Function.update_self]

/-- Storing into the oldest cell of a full window and moving the start by one
drops the oldest entry and appends the value. -/
theorem window_update_full (cells : Nat → α) {max start : Nat} (h : 0 < max) (b : α) :
    window (Function.update cells (start % max) b) max ((start + 1) % max) max =
      (window cells max start max).drop 1 ++ [b] := by
  obtain ⟨k, rfl⟩ : ∃ k, max = k + 1 := ⟨max - 1, by omega⟩
  have hlast : ((start + 1) % (k + 1) + k) % (k + 1) = start % (k + 1) := by
    rw [Nat.mod_add_mod, Nat.add_assoc, Nat.add_comm 1 k, Nat.add_mod_right]
  have hdrop : (window cells (k + 1) start (k + 1)).drop 1 =
      window cells (k + 1) ((start + 1) % (k + 1)) k := by
    rw [window_succ_cons]
    rfl
  rw [hdrop, ← hlast]
  exact window_update_append cells (Nat.lt_succ_self k) b

/-! ### Writing a chunk behind a window -/

/-- Write the entries into the cells `start, start + 1, ..` cyclically. -/
def place (cells : Nat → α) (max start : Nat) : List α → Nat → α
  | [] => cells
  | x :: xs => place (Function.update cells (start % max) x) max (start + 1) xs

theorem window_mod (cells : Nat → α) (max start n : Nat) :
    window cells max (start % max) n = window cells max start n := by
  simp [window]

/-- A chunk written behind a window is appended to it, and where at most `k` entries are
kept the window of the last ones has moved on. -/
theorem keepLast_window_append (cells : Nat → α) {max start n k : Nat} (hn : n ≤ k)
    (hk : k < max) (xs : List α) :
    keepLast k (window cells max start n ++ xs) =
      window (place cells max (start + n) xs) max (start + (n + xs.length - k))
        (min (n + xs.length) k) := by
  induction xs generalizing cells start n with
  | nil =>
      rw [List.append_nil, keepLast_of_length_le (by simpa using hn), List.length_nil,
        Nat.add_zero, Nat.sub_eq_zero_of_le hn, Nat.min_eq_left hn]
      rfl
  | cons x xs ih =>
      have hwrite : window (Function.update cells ((start + n) % max) x) max start (n + 1) =
          window cells max start n ++ [x] :=
        window_update_append cells (by omega) x
      have hsplit : keepLast k (window cells max start n ++ x :: xs) =
          keepLast k (keepLast k (window cells max start n ++ [x]) ++ xs) := by
        rw [keepLast_keepLast_append, List.append_assoc, List.singleton_append]
      rw [hsplit, ← hwrite, List.length_cons, place]
      by_cases hroom : n < k
      · -- the entry fits
        have hfits : keepLast k (window (Function.update cells ((start + n) % max) x) max start
            (n + 1)) = window (Function.update cells ((start + n) % max) x) max start (n + 1) := by
          apply keepLast_of_length_le
          rw [length_window]
          exact hroom
        rw [hfits, ih _ hroom, Nat.add_assoc start n 1, Nat.add_assoc n 1 xs.length,
          Nat.add_comm 1 xs.length]
      · -- the oldest entry goes
        have hfull : n = k := by omega
        subst hfull
        have hdrop : keepLast n (window (Function.update cells ((start + n) % max) x) max start
            (n + 1)) = window (Function.update cells ((start + n) % max) x) max (start + 1) n := by
          rw [keepLast, length_window, Nat.add_sub_cancel_left, window_succ_cons, window_mod]
          rfl
        have hstart : start + 1 + (n + xs.length - n) = start + (n + (xs.length + 1) - n) := by
          omega
        have hlen : min (n + xs.length) n = min (n + (xs.length + 1)) n := by omega
        rw [hdrop, ih _ (Nat.le_refl _), hstart, hlen, Nat.add_right_comm]

/-- What a cell of the store holds after a chunk shorter than the store was written. -/
theorem place_apply (cells : Nat → α) {max start : Nat} {xs : List α} (h : xs.length ≤ max)
    {i : Nat} (hi : i < max) :
    place cells max start xs ((start + i) % max) = xs.getD i (cells ((start + i) % max)) := by
  induction xs generalizing cells start i with
  | nil => rfl
  | cons x xs ih =>
      rw [List.length_cons] at h
      rw [place]
      cases i with
      | zero =>
          -- the later entries stay clear of the first cell
          have hlast : (start + 0) % max = (start + 1 + (max - 1)) % max := by
            rw [show start + 1 + (max - 1) = start + max from by omega, Nat.add_mod_right,
              Nat.add_zero]
          rw [hlast, ih _ (by omega) (by omega), List.getD_eq_getElem?_getD,
            List.getElem?_eq_none (by omega), Option.getD_none, ← hlast,
            Nat.add_zero, Function.update_self]
          rfl
      | succ i =>
          have hshift : start + (i + 1) = start + 1 + i := by omega
          have hne : (start + (i + 1)) % max ≠ start % max := by
            have hcyclic : (start + 0) % max ≠ (start + (i + 1)) % max :=
              cyclic_ne (by omega) (by omega)
            rw [Nat.add_zero] at hcyclic
            exact hcyclic.symm
          rw [hshift, ih _ (by omega) (by omega), ← hshift, Function.update_of_ne hne]
          rfl

end SecureGateway.Library
