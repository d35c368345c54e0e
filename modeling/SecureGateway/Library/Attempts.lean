import SecureGateway.Library.Run
import Mathlib.Data.Finset.Insert

/-!
# Repeated attempts to initialize

An object is initialized by a chain of calls, the first of which opens a handle. Until
an attempt succeeds the initialization is attempted again; afterwards an attempt does
nothing.
-/

namespace SecureGateway.Library

/-- How an object of type `O` is initialized: `X` is how the calls of one attempt come out,
`C` what the attempt returns, and `H` the handles it may open. -/
structure Initializer (O X C H : Type*) where
  initialized : O → Bool
  recorded : O → Finset H
  init : O → Finset H → X → C × O × Finset H
  ok : C
  fresh : Finset H → X → Bool
  FirstFails : X → Prop
  Succeeds : X → Prop

/-- The object and the handles opened and not closed. -/
structure AttemptState (O H : Type*) where
  obj : O
  opened : Finset H

namespace Initializer

variable {O X C H : Type*} (M : Initializer O X C H)

/-- One attempt; the handles it opens were not open. -/
def step (s : AttemptState O H) (x : X) : Option (AttemptState O H) :=
  if M.fresh s.opened x then
    some ⟨(M.init s.obj s.opened x).2.1, (M.init s.obj s.opened x).2.2⟩
  else none

/-- Only recorded handles are open after the attempt, and one that fails leaves the handles
open that it found open. -/
def LeavesNothing (s : AttemptState O H) (x : X) : Prop :=
  (M.init s.obj s.opened x).2.2 ⊆ M.recorded (M.init s.obj s.opened x).2.1 ∧
    ((M.init s.obj s.opened x).1 ≠ M.ok → (M.init s.obj s.opened x).2.2 = s.opened)

/-- An attempt that fails does so at its first call. -/
def FailsFirst (s : AttemptState O H) (x : X) : Prop :=
  M.initialized s.obj = false → M.FirstFails x ∨ M.Succeeds x

/-- What an attempt does, by how far it gets. -/
structure Lawful : Prop where
  again : ∀ o opened x, M.initialized o = true → M.init o opened x = (M.ok, o, opened)
  first_fails : ∀ o opened x, M.initialized o = false → M.FirstFails x →
    (M.init o opened x).1 ≠ M.ok ∧ M.initialized (M.init o opened x).2.1 = false ∧
      (M.init o opened x).2.2 = opened
  later_fails : ∀ o opened x, M.initialized o = false → M.fresh opened x = true →
    ¬ M.FirstFails x → ¬ M.Succeeds x →
      (M.init o opened x).1 ≠ M.ok ∧ (M.init o opened x).2.2 ≠ opened
  succeeds : ∀ o x, M.initialized o = false → M.Succeeds x →
    (M.init o ∅ x).1 = M.ok ∧ M.initialized (M.init o ∅ x).2.1 = true ∧
      (M.init o ∅ x).2.2 ⊆ M.recorded (M.init o ∅ x).2.1

variable {M}

/-- Nothing is open before the first success, and only recorded handles after it. -/
def Clean (M : Initializer O X C H) (s : AttemptState O H) : Prop :=
  if M.initialized s.obj then s.opened ⊆ M.recorded s.obj else s.opened = ∅

theorem step_eq_some {s t : AttemptState O H} {x : X} (h : M.step s x = some t) :
    M.fresh s.opened x = true ∧
      t = ⟨(M.init s.obj s.opened x).2.1, (M.init s.obj s.opened x).2.2⟩ := by
  unfold step at h
  split at h
  · rename_i hfresh
    exact ⟨hfresh, (Option.some.inj h).symm⟩
  · cases h

/-- What an attempt that fails at its first call, if it fails, does to a clean state. -/
theorem FailsFirst.spec (laws : M.Lawful) {s : AttemptState O H} {x : X} (hclean : M.Clean s)
    (h : M.FailsFirst s x) :
    M.LeavesNothing s x ∧
      M.Clean ⟨(M.init s.obj s.opened x).2.1, (M.init s.obj s.opened x).2.2⟩ := by
  unfold Clean at hclean
  cases hinit : M.initialized s.obj with
  | true =>
      rw [hinit, if_pos rfl] at hclean
      rw [LeavesNothing, laws.again s.obj s.opened x hinit]
      refine ⟨⟨hclean, fun _ => rfl⟩, ?_⟩
      rw [Clean, if_pos hinit]
      exact hclean
  | false =>
      rw [hinit, if_neg Bool.false_ne_true] at hclean
      rcases h hinit with hfails | hsucceeds
      · obtain ⟨-, hstill, hopened⟩ := laws.first_fails s.obj s.opened x hinit hfails
        constructor
        · rw [LeavesNothing, hopened]
          refine ⟨?_, fun _ => rfl⟩
          rw [hclean]
          exact Finset.empty_subset _
        · rw [Clean, hstill, if_neg Bool.false_ne_true, hopened]
          exact hclean
      · obtain ⟨hok, hnow, hrecorded⟩ := laws.succeeds s.obj x hinit hsucceeds
        rw [LeavesNothing, Clean, hclean, hnow, if_pos rfl]
        exact ⟨⟨hrecorded, fun hne => absurd hok hne⟩, hrecorded⟩

theorem leavesNothing_iff_failsFirst (laws : M.Lawful) {s : AttemptState O H} {x : X}
    (hclean : M.Clean s) (hfresh : M.fresh s.opened x = true) :
    M.LeavesNothing s x ↔ M.FailsFirst s x := by
  constructor
  · rintro ⟨-, hrestores⟩ hinit
    by_contra hneither
    obtain ⟨hfirst, hsucceeds⟩ := not_or.mp hneither
    obtain ⟨hcode, hopened⟩ := laws.later_fails s.obj s.opened x hinit hfresh hfirst hsucceeds
    exact hopened (hrestores hcode)
  · intro h
    exact (h.spec laws hclean).1

/-- From an object that is not initialized, the attempts leave nothing behind exactly when
each of them that fails does so before it has opened a handle. -/
theorem Lawful.leavesNothing_iff (laws : M.Lawful) {o : O} (ho : M.initialized o = false)
    {xs : List X} {t : AttemptState O H} (hrun : run M.step ⟨o, ∅⟩ xs = some t) :
    Along M.step M.LeavesNothing ⟨o, ∅⟩ xs ↔ Along M.step M.FailsFirst ⟨o, ∅⟩ xs := by
  apply along_iff_of_run M.step M.Clean _ _ _ hrun
  · intro s x t hclean hstep
    exact leavesNothing_iff_failsFirst laws hclean (step_eq_some hstep).1
  · intro s x t hclean hleaves hstep
    obtain ⟨hfresh, rfl⟩ := step_eq_some hstep
    exact (((leavesNothing_iff_failsFirst laws hclean hfresh).mp hleaves).spec laws hclean).2
  · rw [Clean, ho, if_neg Bool.false_ne_true]

end Initializer

end SecureGateway.Library
