import Mathlib.Data.List.Basic

/-!
# Answers that do not depend on the past

A system keeps one value between its inputs, and the value only grows. Its answers
do not depend on the inputs before exactly when the value settles: whatever the
first input is it leaves the same value, and that value changes no answer.
-/

namespace SecureGateway.Library

variable {A X T : Type*} (answer : A → X → T) (next : T → A)

/-- The value kept once the inputs have been answered in order. -/
def keptAfter (a : A) (inputs : List X) : A :=
  inputs.foldl (fun a x => next (answer a x)) a

/-- Every next input is answered alike after any two lists of inputs. -/
def PastFree (a : A) : Prop :=
  ∀ inputs₁ inputs₂ x, answer (keptAfter answer next a inputs₁) x =
    answer (keptAfter answer next a inputs₂) x

/-- From `a` the value moves to `c` with the first input, unnoticed. -/
def Settles (a c : A) : Prop := ∀ x, next (answer a x) = c ∧ answer c x = answer a x

variable {answer next}

theorem Settles.keptAfter {a c : A} (h : Settles answer next a c) (inputs : List X) :
    keptAfter answer next a inputs = a ∨ keptAfter answer next a inputs = c := by
  cases inputs with
  | nil => exact Or.inl rfl
  | cons x xs =>
      right
      have hstay : Library.keptAfter answer next c xs = c := by
        induction xs with
        | nil => rfl
        | cons y ys ih =>
            have hnext : next (answer c y) = c := by rw [(h y).2, (h y).1]
            simpa [Library.keptAfter, hnext] using ih
      simpa [Library.keptAfter, (h x).1] using hstay

/-- When the kept value only grows, the past does not matter exactly when it settles. -/
theorem pastFree_iff (le : A → A → Prop) (antisymm : ∀ a b, le a b → le b a → a = b)
    (grow : ∀ a x, le a (next (answer a x))) (a : A) :
    PastFree answer next a ↔ ∃ c, Settles answer next a c := by
  constructor
  · intro hfree
    -- one earlier input against none
    have hone (y x : X) : answer (next (answer a y)) x = answer a x := hfree [y] [] x
    have hle (y x : X) : le (next (answer a y)) (next (answer a x)) := by
      have hgrow := grow (next (answer a y)) x
      rwa [hone y x] at hgrow
    by_cases hX : Nonempty X
    · obtain ⟨y⟩ := hX
      exact ⟨next (answer a y), fun x => ⟨antisymm _ _ (hle x y) (hle y x), hone y x⟩⟩
    · exact ⟨a, fun x => absurd ⟨x⟩ hX⟩
  · rintro ⟨c, hc⟩ inputs₁ inputs₂ x
    have hsame (inputs : List X) :
        answer (Library.keptAfter answer next a inputs) x = answer a x := by
      rcases hc.keptAfter inputs with h | h
      · rw [h]
      · rw [h, (hc x).2]
    rw [hsame, hsame]

end SecureGateway.Library
