import Mathlib.Order.Interval.Finset.Nat

/-!
# Gaps in an increasing sequence

The numbers an increasing sequence leaves out between its first and its last, and how
they add up step by step.
-/

namespace SecureGateway.Library

/-- Numbers that increase, by at most `m` at a step. -/
def InSteps (m : Nat) (seqs : List Nat) : Prop :=
  seqs.IsChain fun a b => a < b ∧ b ≤ a + m

instance (m : Nat) (seqs : List Nat) : Decidable (InSteps m seqs) :=
  inferInstanceAs (Decidable (seqs.IsChain fun a b => a < b ∧ b ≤ a + m))

/-- How many numbers between the first and the last are missing. -/
def skipped : List Nat → Nat
  | [] => 0
  | a :: rest =>
      (Finset.Icc a ((a :: rest).getLast (List.cons_ne_nil a rest)) \ (a :: rest).toFinset).card

variable {m a b : Nat} {rest : List Nat}

theorem InSteps.tail (h : InSteps m (a :: b :: rest)) : InSteps m (b :: rest) :=
  (List.isChain_cons_cons.mp h).2

theorem InSteps.step (h : InSteps m (a :: b :: rest)) : a < b ∧ b ≤ a + m :=
  (List.isChain_cons_cons.mp h).1

theorem InSteps.pairwise {seqs : List Nat} (h : InSteps m seqs) : seqs.Pairwise (· < ·) :=
  List.isChain_iff_pairwise.mp (h.imp fun _ _ hstep => hstep.1)

theorem InSteps.nodup {seqs : List Nat} (h : InSteps m seqs) : seqs.Nodup :=
  h.pairwise.imp Nat.ne_of_lt

/-- The members lie between the first and the last. -/
theorem InSteps.subset (h : InSteps m (a :: rest)) :
    (a :: rest).toFinset ⊆ Finset.Icc a ((a :: rest).getLast (List.cons_ne_nil a rest)) := by
  intro n hn
  rw [List.mem_toFinset] at hn
  rw [Finset.mem_Icc]
  refine ⟨?_, (h.pairwise.imp Nat.le_of_lt).rel_getLast hn⟩
  obtain rfl | hn := List.mem_cons.mp hn
  · exact le_rfl
  · exact ((List.pairwise_cons.mp h.pairwise).1 n hn).le

/-- What is missing is what the range has more than the sequence. -/
theorem InSteps.skipped_add_length (h : InSteps m (a :: rest)) :
    skipped (a :: rest) + (a :: rest).length =
      (a :: rest).getLast (List.cons_ne_nil a rest) + 1 - a := by
  rw [← Nat.card_Icc, ← List.toFinset_card_of_nodup h.nodup]
  exact Finset.card_sdiff_add_card_eq_card h.subset

theorem skipped_singleton (a : Nat) : skipped [a] = 0 := by
  simp [skipped]

theorem InSteps.skipped_cons_cons (h : InSteps m (a :: b :: rest)) :
    skipped (a :: b :: rest) = (b - a - 1) + skipped (b :: rest) := by
  have hall := h.skipped_add_length
  have htail := h.tail.skipped_add_length
  have hstep := h.step
  have hlast : b ≤ (b :: rest).getLast (List.cons_ne_nil b rest) :=
    (Finset.mem_Icc.mp (h.tail.subset (by simp))).2
  rw [List.getLast_cons_cons] at hall
  simp only [List.length_cons] at hall htail
  omega

end SecureGateway.Library
