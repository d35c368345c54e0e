import Mathlib.Data.List.Basic

/-!
# Programs that note what they load

A program over a byte memory records the range of every load beside its result. The
rules give the result and the ranges of a program from those of its parts.
-/

namespace SecureGateway.Library

/-- A load of `width` bytes from `start`. -/
structure ByteRange where
  start : Nat
  width : Nat
deriving DecidableEq

def ByteRange.Within (size : Nat) (r : ByteRange) : Prop := r.start + r.width ≤ size

/-- A program with the loads made so far as its state. -/
abbrev Loads (α : Type) := StateM (List ByteRange) α

/-- The bytes of a range. -/
def bytesAt (mem : Nat → UInt8) (r : ByteRange) : List UInt8 :=
  (List.range r.width).map fun k => mem (r.start + k)

def load (mem : Nat → UInt8) (start width : Nat) : Loads (List UInt8) := do
  modify (· ++ [⟨start, width⟩])
  return bytesAt mem ⟨start, width⟩

/-- What a program returns, started without loads. -/
def Loads.value {α : Type} (p : Loads α) : α := (p.run []).1

/-- The loads of a program, in order. -/
def Loads.ranges {α : Type} (p : Loads α) : List ByteRange := (p.run []).2

variable {α β : Type}

/-- The program returns `a` and makes the loads `rs`, whatever was loaded before. -/
def Reads (p : Loads α) (a : α) (rs : List ByteRange) : Prop :=
  ∀ before, p.run before = (a, before ++ rs)

theorem Reads.value {p : Loads α} {a : α} {rs : List ByteRange} (h : Reads p a rs) :
    p.value = a :=
  congrArg Prod.fst (h [])

theorem Reads.ranges {p : Loads α} {a : α} {rs : List ByteRange} (h : Reads p a rs) :
    p.ranges = rs :=
  congrArg Prod.snd (h [])

theorem reads_pure (a : α) : Reads (pure a) a [] := by
  intro before
  rw [List.append_nil]
  rfl

theorem reads_load (mem : Nat → UInt8) (start width : Nat) :
    Reads (load mem start width) (bytesAt mem ⟨start, width⟩) [⟨start, width⟩] :=
  fun _ => rfl

theorem Reads.bind {p : Loads α} {q : α → Loads β} {a : α} {b : β} {rs ss : List ByteRange}
    (hp : Reads p a rs) (hq : Reads (q a) b ss) : Reads (p >>= q) b (rs ++ ss) := by
  intro before
  rw [StateT.run_bind, hp before, ← List.append_assoc]
  exact hq (before ++ rs)

/-- The rule for a last step that loads nothing. -/
theorem Reads.map {p : Loads α} {a : α} {rs : List ByteRange} (hp : Reads p a rs) (f : α → β) :
    Reads (p >>= fun x => pure (f x)) (f a) rs := by
  have hbind := hp.bind (q := fun x => pure (f x)) (reads_pure (f a))
  rwa [List.append_nil] at hbind

/-- The rule for a loop over a list. -/
theorem reads_mapM {body : α → Loads β} {value : α → β} {ranges : α → List ByteRange}
    (hbody : ∀ a, Reads (body a) (value a) (ranges a)) (xs : List α) :
    Reads (xs.mapM body) (xs.map value) (xs.flatMap ranges) := by
  induction xs with
  | nil => exact reads_pure []
  | cons x xs ih =>
      rw [List.mapM_cons, List.map_cons, List.flatMap_cons]
      exact (hbody x).bind (ih.map (value x :: ·))

end SecureGateway.Library
