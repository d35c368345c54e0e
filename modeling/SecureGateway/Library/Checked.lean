import Mathlib.Data.List.Basic

/-!
# Computations that may fail

Inversion of sequenced `Except` computations, and the rules for a fold whose steps
may fail.
-/

namespace SecureGateway.Library

universe u v w
variable {ε : Type u} {α β : Type v} {γ : Type w}

theorem bind_eq_ok_iff {x : Except ε α} {f : α → Except ε β} {r : β} :
    (x >>= f) = .ok r ↔ ∃ a, x = .ok a ∧ f a = .ok r := by
  cases x with
  | error e => simp [bind, Except.bind]
  | ok a => simp [bind, Except.bind]

@[simp] theorem ok_bind (a : α) (f : α → Except ε β) :
    ((Except.ok a : Except ε α) >>= f) = f a := rfl

/-- A property every step keeps holds of the result of the fold. -/
theorem foldlM_invariant {Inv : β → Prop} {step : β → γ → Except ε β} {xs : List γ}
    (preserve : ∀ b, ∀ a ∈ xs, ∀ b', Inv b → step b a = .ok b' → Inv b')
    {b r : β} (init : Inv b) (h : xs.foldlM step b = .ok r) : Inv r := by
  induction xs generalizing b with
  | nil =>
      cases h
      exact init
  | cons a xs ih =>
      rw [List.foldlM_cons] at h
      obtain ⟨b', hstep, hrest⟩ := bind_eq_ok_iff.mp h
      exact ih (fun c x hx => preserve c x (List.mem_cons_of_mem a hx))
        (preserve b a List.mem_cons_self b' init hstep) hrest

/-- A fold none of whose steps ends in an error does not end in it. -/
theorem foldlM_ne_error {Inv : β → Prop} {step : β → γ → Except ε β} {e : ε} {xs : List γ}
    (preserve : ∀ b, ∀ a ∈ xs, ∀ b', Inv b → step b a = .ok b' → Inv b')
    (safe : ∀ b, ∀ a ∈ xs, Inv b → step b a ≠ .error e)
    {b : β} (init : Inv b) : xs.foldlM step b ≠ .error e := by
  induction xs generalizing b with
  | nil =>
      intro h
      cases h
  | cons a xs ih =>
      rw [List.foldlM_cons]
      cases hstep : step b a with
      | error e' =>
          intro h
          cases h
          exact safe b a List.mem_cons_self init hstep
      | ok b' =>
          rw [ok_bind]
          exact ih (fun c x hx => preserve c x (List.mem_cons_of_mem a hx))
            (fun c x hx => safe c x (List.mem_cons_of_mem a hx))
            (preserve b a List.mem_cons_self b' init hstep)

/-- A fold whose steps succeed or not whatever the state succeeds when all of them do. -/
theorem exists_foldlM_iff {Good : γ → Prop} {step : β → γ → Except ε β}
    (hstep : ∀ b a, (∃ b', step b a = .ok b') ↔ Good a) (xs : List γ) (b : β) :
    (∃ r, xs.foldlM step b = .ok r) ↔ ∀ a ∈ xs, Good a := by
  induction xs generalizing b with
  | nil => exact ⟨fun _ a ha => absurd ha List.not_mem_nil, fun _ => ⟨b, rfl⟩⟩
  | cons a xs ih =>
      rw [List.forall_mem_cons, ← hstep b a, List.foldlM_cons]
      constructor
      · rintro ⟨r, hr⟩
        obtain ⟨b', hb', hrest⟩ := bind_eq_ok_iff.mp hr
        exact ⟨⟨b', hb'⟩, (ih b').mp ⟨r, hrest⟩⟩
      · rintro ⟨⟨b', hb'⟩, hrest⟩
        rw [hb', ok_bind]
        exact (ih b').mpr hrest

end SecureGateway.Library
