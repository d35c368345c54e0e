import Mathlib.Data.List.Forall2
import Mathlib.Logic.Function.Basic

/-!
# Merges of streams

Several streams arrive in one order. A list of tagged items is a merge of the streams when
what it has under each tag is the stream of that tag; nothing else is said of the order.
-/

namespace SecureGateway.Library

variable {σ α β γ : Type*} [DecidableEq σ]

/-- What a list of tagged items has under one tag. -/
def streamOf (s : σ) (order : List (σ × α)) : List α :=
  (order.filter fun x => x.1 = s).map Prod.snd

theorem streamOf_cons_self (s : σ) (a : α) (order : List (σ × α)) :
    streamOf s ((s, a) :: order) = a :: streamOf s order := by
  simp [streamOf]

theorem streamOf_cons_other {s s' : σ} (h : s' ≠ s) (a : α) (order : List (σ × α)) :
    streamOf s ((s', a) :: order) = streamOf s order := by
  simp [streamOf, h]

/-- The list is a merge of the streams. -/
def Merges (order : List (σ × α)) (streams : σ → List α) : Prop :=
  ∀ s, streamOf s order = streams s

/-- Streams related item by item to those of a merge have a merge that is related to it item
by item. -/
theorem exists_merges {R : α → β → Prop} {order : List (σ × β)} {streams : σ → List α}
    (h : ∀ s, List.Forall₂ R (streams s) (streamOf s order)) :
    ∃ merge : List (σ × α), Merges merge streams ∧
      List.Forall₂ (fun x y => x.1 = y.1 ∧ R x.2 y.2) merge order := by
  induction order generalizing streams with
  | nil => exact ⟨[], fun s => (List.forall₂_nil_right_iff.mp (h s)).symm, List.Forall₂.nil⟩
  | cons y order ih =>
      obtain ⟨s, b⟩ := y
      have hs := h s
      rw [streamOf_cons_self] at hs
      obtain ⟨a, rest, hR, hrest, heq⟩ := List.forall₂_cons_right_iff.mp hs
      have hothers (s' : σ) :
          List.Forall₂ R (Function.update streams s rest s') (streamOf s' order) := by
        by_cases hss : s' = s
        · subst s'
          rwa [Function.update_self]
        · rw [Function.update_of_ne hss]
          have hs' := h s'
          rwa [streamOf_cons_other (Ne.symm hss)] at hs'
      obtain ⟨merge, hmerge, hall⟩ := ih hothers
      refine ⟨(s, a) :: merge, ?_, List.Forall₂.cons ⟨rfl, hR⟩ hall⟩
      intro s'
      by_cases hss : s' = s
      · subst s'
        rw [streamOf_cons_self, hmerge, Function.update_self, heq]
      · rw [streamOf_cons_other (Ne.symm hss), hmerge, Function.update_of_ne hss]

/-- Keeping the items of one tag of a merge keeps the stream of that tag. -/
theorem Merges.filter_tag {order : List (σ × α)} {streams : σ → List α}
    (h : Merges order streams) {s : σ} {keep : σ × α → Bool}
    (hkeep : ∀ x, keep x = true ↔ x.1 = s) : (order.filter keep).map Prod.snd = streams s := by
  rw [← h s, streamOf]
  congr 1
  apply List.filter_congr
  intro x _
  rw [Bool.eq_iff_iff, hkeep x, decide_eq_true_iff]

/-- Lists that are related item by item give the same when related items are both kept or both
left out, and those kept give the same. -/
theorem filter_map_eq_of_forall₂ {R : α → β → Prop} {xs : List α} {ys : List β}
    (h : List.Forall₂ R xs ys) {p : α → Bool} {q : β → Bool} {f : α → γ} {g : β → γ}
    (hkeep : ∀ x y, R x y → p x = q y) (hsame : ∀ x y, R x y → f x = g y) :
    (xs.filter p).map f = (ys.filter q).map g := by
  induction h with
  | nil => rfl
  | @cons x y xs ys hR _ ih =>
      by_cases hp : p x = true
      · rw [List.filter_cons_of_pos hp, List.filter_cons_of_pos (hkeep x y hR ▸ hp), List.map_cons,
          List.map_cons, ih, hsame x y hR]
      · rw [List.filter_cons_of_neg hp, List.filter_cons_of_neg (hkeep x y hR ▸ hp), ih]

end SecureGateway.Library
