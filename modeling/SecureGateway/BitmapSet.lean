import Mathlib.Data.Finset.SymmDiff
import Mathlib.Data.Fintype.Basic
import SecureGateway.Bitmap

/-!
# Bitmaps and sets of indices

The operations of `bitmap_t` maintain the set of indices they name. What
`bitmap_test` says about an index is the truth as long as the masked bit survives
the conversion to `int`.
-/

namespace SecureGateway

/-- An operation on a bitmap, at an index below `BITMAP_MAX_LEN`. -/
inductive BitmapOp
  | clear
  | set (index : Fin bitmapMaxLen)
  | unset (index : Fin bitmapMaxLen)
  | toggle (index : Fin bitmapMaxLen)
deriving DecidableEq

namespace BitmapOp

/-- The operation on the words. -/
def apply (bitmap : Bitmap) : BitmapOp → Bitmap
  | clear => bitmapClear
  | set index => bitmapSet bitmap index.val
  | unset index => bitmapUnset bitmap index.val
  | toggle index => bitmapToggle bitmap index.val

/-- The operation on the set. -/
def applySet (members : Finset (Fin bitmapMaxLen)) : BitmapOp → Finset (Fin bitmapMaxLen)
  | clear => ∅
  | set index => insert index members
  | unset index => members.erase index
  | toggle index => symmDiff members {index}

/-- Whether the operation names another index than the given one. -/
def Spares (i : Fin bitmapMaxLen) : BitmapOp → Prop
  | clear => False
  | set index | unset index | toggle index => index ≠ i

end BitmapOp

/-- The set a bitmap stands for. -/
def Bitmap.members (bitmap : Bitmap) : Finset (Fin bitmapMaxLen) :=
  Finset.univ.filter fun i => bitmap.has i.val = true

@[simp] theorem Bitmap.mem_members (bitmap : Bitmap) (i : Fin bitmapMaxLen) :
    i ∈ bitmap.members ↔ bitmap.has i.val = true := by
  simp [Bitmap.members]

theorem has_bitmapClear (index : Nat) : bitmapClear.has index = false := by
  have hword : bitmapClear.word (index / 64) = 0#64 := by
    simp only [Bitmap.word, bitmapClear]
    split <;> rfl
  simp [Bitmap.has, hword]

/-- Each operation does to the set what it does to the words. -/
theorem members_apply (bitmap : Bitmap) (op : BitmapOp) :
    (op.apply bitmap).members = op.applySet bitmap.members := by
  ext i
  cases op with
  | clear => simp [BitmapOp.apply, BitmapOp.applySet, has_bitmapClear]
  | set index =>
      simp only [BitmapOp.apply, BitmapOp.applySet, Bitmap.mem_members, Finset.mem_insert,
        has_bitmapSet bitmap i.isLt]
      simp [Fin.ext_iff, or_comm]
  | unset index =>
      simp only [BitmapOp.apply, BitmapOp.applySet, Bitmap.mem_members, Finset.mem_erase,
        has_bitmapUnset bitmap i.isLt]
      simp [Fin.ext_iff, and_comm]
  | toggle index =>
      simp only [BitmapOp.apply, BitmapOp.applySet, Bitmap.mem_members, Finset.mem_symmDiff,
        Finset.mem_singleton, has_bitmapToggle bitmap i.isLt]
      cases bitmap.has i.val <;> simp [Fin.ext_iff]

/-- So does every sequence of operations. -/
theorem members_foldl (bitmap : Bitmap) (ops : List BitmapOp) :
    (ops.foldl BitmapOp.apply bitmap).members = ops.foldl BitmapOp.applySet bitmap.members := by
  induction ops generalizing bitmap with
  | nil => rfl
  | cons op ops ih => rw [List.foldl_cons, List.foldl_cons, ih, members_apply]

/-- The test finds a member when its bit is in the low half of the word. -/
theorem bitmapTest_ne_zero_iff_mem (bitmap : Bitmap) (i : Fin bitmapMaxLen) :
    bitmapTest bitmap i.val ≠ 0#32 ↔ i ∈ bitmap.members ∧ i.val < 32 := by
  rw [Bitmap.mem_members]
  by_cases hlow : i.val < 32
  · rw [bitmapTest_ne_zero_iff bitmap hlow]
    exact (and_iff_left hlow).symm
  · have hmod : 32 ≤ i.val % 64 := by
      have hlt := i.isLt
      simp only [bitmapMaxLen] at hlt
      omega
    simp [bitmapTest_eq_zero_of_le bitmap hmod, hlow]

/-- An operation on one index never changes what the test says about another. -/
theorem bitmapTest_apply_of_spares (bitmap : Bitmap) {op : BitmapOp} {i : Fin bitmapMaxLen}
    (h : op.Spares i) :
    bitmapTest (op.apply bitmap) i.val ≠ 0#32 ↔ bitmapTest bitmap i.val ≠ 0#32 := by
  have hmem : i ∈ op.applySet bitmap.members ↔ i ∈ bitmap.members := by
    cases op with
    | clear => exact h.elim
    | set index => simp [BitmapOp.applySet, h.symm]
    | unset index => simp [BitmapOp.applySet, h.symm]
    | toggle index => simp [BitmapOp.applySet, Finset.mem_symmDiff, h.symm]
  rw [bitmapTest_ne_zero_iff_mem, bitmapTest_ne_zero_iff_mem, members_apply, hmem]

/-- After any operations the test tells the members of the set exactly when the index is below the
width of `int` or not a member; and operations on other indices do not matter to it. -/
theorem bitmapTest_refines_iff (bitmap : Bitmap) (ops : List BitmapOp)
    (i : Fin bitmapMaxLen) :
    ((bitmapTest (ops.foldl BitmapOp.apply bitmap) i.val ≠ 0#32 ↔
        i ∈ ops.foldl BitmapOp.applySet bitmap.members) ∧
      ∀ op : BitmapOp, op.Spares i →
        (bitmapTest (op.apply (ops.foldl BitmapOp.apply bitmap)) i.val ≠ 0#32 ↔
          bitmapTest (ops.foldl BitmapOp.apply bitmap) i.val ≠ 0#32)) ↔
      i.val < 32 ∨ i ∉ ops.foldl BitmapOp.applySet bitmap.members := by
  have hspares : ∀ op : BitmapOp, op.Spares i →
      (bitmapTest (op.apply (ops.foldl BitmapOp.apply bitmap)) i.val ≠ 0#32 ↔
        bitmapTest (ops.foldl BitmapOp.apply bitmap) i.val ≠ 0#32) :=
    fun op h => bitmapTest_apply_of_spares _ h
  rw [and_iff_left hspares, bitmapTest_ne_zero_iff_mem, members_foldl]
  constructor
  · intro hanswer
    by_cases hmem : i ∈ ops.foldl BitmapOp.applySet bitmap.members
    · exact Or.inl (hanswer.mpr hmem).2
    · exact Or.inr hmem
  · rintro (hlow | hmem)
    · exact and_iff_left hlow
    · exact iff_of_false (fun h => hmem h.1) hmem

/-- Index 32, below the declared limit, is set and tests as absent. -/
theorem bitmapTest_misses_member :
    ¬ ∀ (ops : List BitmapOp) (i : Fin bitmapMaxLen),
      bitmapTest (ops.foldl BitmapOp.apply bitmapClear) i.val ≠ 0#32 ↔
        i ∈ ops.foldl BitmapOp.applySet ∅ := by
  intro hall
  have hmem := hall [.set ⟨32, by decide⟩] ⟨32, by decide⟩
  exact (hmem.mpr (by decide)) (by decide)

end SecureGateway
