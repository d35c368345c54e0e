import Mathlib.Data.List.Basic

/-!
# Draining a source

The loop that takes an entry from a source after every positive answer of the source. A
source that never answers no keeps the loop running whatever the entries are.
-/

namespace SecureGateway.Library

variable {A α : Type*}

/-- The two calls of the loop. -/
structure Drainable (A α : Type*) where
  hasMore : A → Bool × A
  take : A → α × A

namespace Drainable

variable (src : Drainable A α)

/-- The source once it has answered and an entry has been taken. -/
def after (a : A) : A := (src.take (src.hasMore a).2).2

/-- The entry taken after a positive answer. -/
def entry (a : A) : α := (src.take (src.hasMore a).2).1

/-- The loop, given up after `fuel` entries: what it took and the source it left. -/
def drain : Nat → A → Option (List α × A)
  | 0, _ => none
  | fuel + 1, a =>
      if (src.hasMore a).1 then
        (drain fuel (src.after a)).map fun r => (src.entry a :: r.1, r.2)
      else some ([], (src.hasMore a).2)

/-- The entries of the first `n` rounds. -/
def entries : Nat → A → List α
  | 0, _ => []
  | n + 1, a => if (src.hasMore a).1 then src.entry a :: entries n (src.after a) else []

/-- The source answers yes, and the property lasts over the next round. -/
def GoesOn (Inv : A → Prop) : Prop :=
  ∀ a, Inv a → (src.hasMore a).1 = true ∧ Inv (src.after a)

variable {src} {Inv : A → Prop}

/-- A source that goes on is never drained. -/
theorem GoesOn.drain_eq_none (h : src.GoesOn Inv) (fuel : Nat) {a : A} (ha : Inv a) :
    src.drain fuel a = none := by
  induction fuel generalizing a with
  | zero => rfl
  | succ fuel ih =>
      obtain ⟨hmore, hafter⟩ := h a ha
      rw [drain, if_pos hmore, ih hafter, Option.map_none]

/-- The entries of a source that goes on are those of a stream it consumes from the front. -/
theorem GoesOn.entries_eq (h : src.GoesOn Inv) {stream : A → Nat → α}
    (hhead : ∀ a, Inv a → src.entry a = stream a 0)
    (htail : ∀ a, Inv a → ∀ n, stream (src.after a) n = stream a (n + 1))
    (n : Nat) {a : A} (ha : Inv a) : src.entries n a = (List.range n).map (stream a) := by
  induction n generalizing a with
  | zero => rfl
  | succ n ih =>
      obtain ⟨hmore, hafter⟩ := h a ha
      rw [entries, if_pos hmore, ih hafter, List.range_succ_eq_map, List.map_cons, List.map_map,
        hhead a ha]
      congr 1
      apply List.map_congr_left
      intro m _
      exact htail a ha m

end Drainable

end SecureGateway.Library
