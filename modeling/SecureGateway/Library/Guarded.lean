import Mathlib.Data.List.Basic
import Mathlib.Logic.Function.Basic

/-!
# Guarded programs over tables

A program asserts conditions, takes the addresses of table slots and changes the state.
The slots whose addresses it takes are recorded; an address past the end of its table
stops it, and a program that stops leaves the state it had reached. The rules give what
a program records from its parts.
-/

namespace SecureGateway.Library

/-- The element of a table at an index, which may lie past the end. -/
structure Slot (T : Type) where
  table : T
  index : Nat
deriving DecidableEq

def Slot.Within {T : Type} (size : T → Nat) (slot : Slot T) : Prop := slot.index < size slot.table

/-- What a table holds at an index. -/
def tableAt {α : Type} {n : Nat} (table : Fin n → α) (index : Nat) : Option α :=
  if h : index < n then some (table ⟨index, h⟩) else none

theorem tableAt_congr {α : Type} {n : Nat} {table table' : Fin n → α} {index : Nat}
    (h : ∀ hlt : index < n, table ⟨index, hlt⟩ = table' ⟨index, hlt⟩) :
    tableAt table index = tableAt table' index := by
  unfold tableAt
  split
  · rw [h]
  · rfl

theorem tableAt_update_of_ne {α : Type} {n : Nat} (table : Fin n → α) {i : Fin n} (a : α)
    {index : Nat} (h : index ≠ i.val) :
    tableAt (Function.update table i a) index = tableAt table index := by
  apply tableAt_congr
  intro hlt
  have hne : (⟨index, hlt⟩ : Fin n) ≠ i := fun heq => h (congrArg Fin.val heq)
  rw [Function.update_of_ne hne]

/-- The state with the slots whose addresses were taken. -/
structure Traced (S T : Type) where
  state : S
  slots : List (Slot T)

/-- A program that may stop with an error. -/
abbrev Guarded (S T E α : Type) := EStateM E (Traced S T) α

variable {S T E α β γ : Type}

/-- Stop unless the condition holds. -/
def assert (condition : Prop) [Decidable condition] (failed : E) : Guarded S T E Unit :=
  if condition then pure () else throw failed

/-- The address of a slot. -/
def address (size : T → Nat) (past : E) (table : T) (index : Nat) :
    Guarded S T E (Fin (size table)) := do
  modify fun s => { s with slots := s.slots ++ [⟨table, index⟩] }
  if h : index < size table then return ⟨index, h⟩ else throw past

def look (f : S → α) : Guarded S T E α := do return f (← get).state

def change (f : S → S) : Guarded S T E Unit := modify fun s => { s with state := f s.state }

/-- The program returns `a` in the state `t` and takes the addresses of the given slots,
whatever was recorded before. -/
def Returns (p : Guarded S T E α) (s : S) (a : α) (t : S) (slots : List (Slot T)) : Prop :=
  ∀ before, p.run ⟨s, before⟩ = .ok a ⟨t, before ++ slots⟩

/-- The program stops with `e` in the state `t`. -/
def Throws (p : Guarded S T E α) (s : S) (e : E) (t : S) (slots : List (Slot T)) : Prop :=
  ∀ before, p.run ⟨s, before⟩ = .error e ⟨t, before ++ slots⟩

/-! ### The rules -/

variable {p : Guarded S T E α} {q : α → Guarded S T E β} {s t u : S} {a : α} {b : β} {e : E}
  {slots more : List (Slot T)}

theorem returns_pure (a : α) (s : S) : Returns (pure a : Guarded S T E α) s a s [] := by
  intro before
  rw [List.append_nil]
  rfl

theorem returns_assert {condition : Prop} [Decidable condition] (h : condition) (failed : E)
    (s : S) : Returns (assert condition failed : Guarded S T E Unit) s () s [] := by
  rw [assert, if_pos h]
  exact returns_pure () s

theorem throws_assert {condition : Prop} [Decidable condition] (h : ¬ condition) (failed : E)
    (s : S) : Throws (assert condition failed : Guarded S T E Unit) s failed s [] := by
  intro before
  rw [assert, if_neg h, List.append_nil]
  rfl

theorem returns_address (size : T → Nat) (table : T) {index : Nat} (h : index < size table)
    (past : E) (s : S) :
    Returns (address size past table index) s ⟨index, h⟩ s [⟨table, index⟩] := by
  intro before
  rw [address, dif_pos h]
  rfl

theorem throws_address (size : T → Nat) (table : T) {index : Nat} (h : ¬ index < size table)
    (past : E) (s : S) :
    Throws (address size past table index) s past s [⟨table, index⟩] := by
  intro before
  rw [address, dif_neg h]
  rfl

theorem returns_look (f : S → α) (s : S) :
    Returns (look f : Guarded S T E α) s (f s) s [] := by
  intro before
  rw [List.append_nil]
  rfl

theorem returns_change (f : S → S) (s : S) :
    Returns (change f : Guarded S T E Unit) s () (f s) [] := by
  intro before
  rw [List.append_nil]
  rfl

theorem Returns.bind (hp : Returns p s a t slots) (hq : Returns (q a) t b u more) :
    Returns (p >>= q) s b u (slots ++ more) := by
  intro before
  rw [EStateM.run_bind, hp before, ← List.append_assoc]
  exact hq (before ++ slots)

theorem Returns.bind_throws (hp : Returns p s a t slots) (hq : Throws (q a) t e u more) :
    Throws (p >>= q) s e u (slots ++ more) := by
  intro before
  rw [EStateM.run_bind, hp before, ← List.append_assoc]
  exact hq (before ++ slots)

theorem Throws.bind (hp : Throws p s e t slots) : Throws (p >>= q) s e t slots := by
  intro before
  rw [EStateM.run_bind, hp before]

/-- A program that stops does so with one error only, and does not return. -/
theorem Throws.error_unique {e' : E} (h : Throws p s e t slots) (h' : Throws p s e' u more) :
    e = e' := by
  have heq := (h []).symm.trans (h' [])
  injection heq

theorem Throws.not_returns (h : Throws p s e t slots) : ¬ Returns p s a u more := by
  intro h'
  have heq := (h []).symm.trans (h' [])
  cases heq

/-! ### Keeping to a slot -/

/-- An assertion stops the program before it does anything, or it takes the address of one
slot only, which lies in its table, and ends as `Post` says. -/
def KeepsTo (size : T → Nat) (failed : E) (slot : Slot T) (Post : α → S → Prop)
    (p : Guarded S T E α) (s : S) : Prop :=
  Throws p s failed s [] ∨
    ∃ a t slots, Returns p s a t slots ∧ slots ≠ [] ∧ (∀ x ∈ slots, x = slot) ∧
      slot.Within size ∧ Post a t

theorem not_keepsTo_of_throws {size : T → Nat} {failed : E} {slot : Slot T}
    {Post : α → S → Prop} (h : Throws p s e t slots) (he : e ≠ failed) :
    ¬ KeepsTo size failed slot Post p s := by
  rintro (hfail | ⟨a, u, more, hreturns, -⟩)
  · exact he (h.error_unique hfail)
  · exact h.not_returns hreturns

/-- The program takes addresses inside the tables only and stops for no other reason than an
assertion. -/
def InBounds (size : T → Nat) (failed : E) (p : Guarded S T E α) (s : S) : Prop :=
  ∃ t slots, (∀ x ∈ slots, Slot.Within size x) ∧
    (Throws p s failed t slots ∨ ∃ a, Returns p s a t slots)

theorem KeepsTo.inBounds {size : T → Nat} {failed : E} {slot : Slot T} {Post : α → S → Prop}
    (h : KeepsTo size failed slot Post p s) : InBounds size failed p s := by
  obtain hfail | ⟨a, t, slots, hreturns, -, hslot, hwithin, -⟩ := h
  · exact ⟨s, [], by simp, Or.inl hfail⟩
  · refine ⟨t, slots, ?_, Or.inr ⟨a, hreturns⟩⟩
    intro x hx
    rw [hslot x hx]
    exact hwithin

theorem InBounds.bind {size : T → Nat} {failed : E} (hp : InBounds size failed p s)
    (hq : ∀ a t, InBounds size failed (q a) t) : InBounds size failed (p >>= q) s := by
  obtain ⟨t, slots, hslots, hfail | ⟨a, hreturns⟩⟩ := hp
  · exact ⟨t, slots, hslots, Or.inl hfail.bind⟩
  · obtain ⟨u, more, hmore, hrest⟩ := hq a t
    refine ⟨u, slots ++ more, List.forall_mem_append.mpr ⟨hslots, hmore⟩, ?_⟩
    obtain hfail | ⟨b, hb⟩ := hrest
    · exact Or.inl (hreturns.bind_throws hfail)
    · exact Or.inr ⟨b, hreturns.bind hb⟩

/-- The rule for one program after another. -/
theorem inBounds_mapM {size : T → Nat} {failed : E} {body : γ → Guarded S T E α} {xs : List γ}
    (h : ∀ x ∈ xs, ∀ s, InBounds size failed (body x) s) (s : S) :
    InBounds size failed (xs.mapM body) s := by
  induction xs generalizing s with
  | nil => exact ⟨s, [], by simp, Or.inr ⟨[], returns_pure [] s⟩⟩
  | cons x xs ih =>
      rw [List.mapM_cons]
      apply (h x List.mem_cons_self s).bind
      intro a t
      apply (ih (fun y hy => h y (List.mem_cons_of_mem x hy)) t).bind
      intro as u
      exact ⟨u, [], by simp, Or.inr ⟨a :: as, returns_pure _ u⟩⟩

end SecureGateway.Library
