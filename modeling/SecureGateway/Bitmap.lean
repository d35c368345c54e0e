import Mathlib.Data.List.Basic

/-!
# Sink bitmaps

The word array of `bitmap_t` and its operations. An index past the array names
no word: a store there is dropped and a test reads zero.

## Implementation notes

`bitmapTest` returns the masked word converted to a 32-bit `int`, so the bits
above the low half of a word test as zero. `Bitmap.has` is the membership the
operations are meant to maintain; the two agree below index 32.
-/

namespace SecureGateway

/-- `BITMAP_MAX_LEN`. -/
def bitmapMaxLen : Nat := 64

/-- `struct bitmap_t`: `BITMAP_MAX_LEN / 64 + 1` words. -/
structure Bitmap where
  data : Fin (bitmapMaxLen / 64 + 1) → BitVec 64

namespace Bitmap

/-- The word at an index of the array, zero past its end. -/
def word (b : Bitmap) (j : Nat) : BitVec 64 :=
  if h : j < bitmapMaxLen / 64 + 1 then b.data ⟨j, h⟩ else 0#64

/-- Replace the word at an index of the array. -/
def modifyWord (b : Bitmap) (j : Nat) (f : BitVec 64 → BitVec 64) : Bitmap where
  data k := if k.val = j then f (b.data k) else b.data k

/-- Membership of an index in the set the bitmap stands for. -/
def has (b : Bitmap) (index : Nat) : Bool :=
  (b.word (index / 64)).getLsbD (index % 64)

theorem word_modifyWord (b : Bitmap) (f : BitVec 64 → BitVec 64) {j k : Nat}
    (hk : k < bitmapMaxLen / 64 + 1) :
    (b.modifyWord j f).word k = if k = j then f (b.word k) else b.word k := by
  simp [word, modifyWord, hk]

end Bitmap

/-- The bit of an index within its word: `1ULL << (index % 64)`. -/
def bitOf (index : Nat) : BitVec 64 := 1#64 <<< (index % 64)

@[simp] theorem getLsbD_bitOf (index k : Nat) :
    (bitOf index).getLsbD k = (decide (k < 64) && decide (k = index % 64)) := by
  simp only [bitOf, BitVec.getLsbD_shiftLeft, BitVec.getLsbD_one]
  rcases Nat.lt_trichotomy k (index % 64) with h | h | h
  · simp [h, Nat.ne_of_lt h]
  · simp [h]
  · simp [Nat.ne_of_gt h, Nat.not_lt.mpr (Nat.le_of_lt h), show k - index % 64 ≠ 0 by omega]

theorem getElem_bitOf (index k : Nat) (h : k < 64) :
    (bitOf index)[k] = decide (k = index % 64) := by
  rw [← BitVec.getLsbD_eq_getElem h, getLsbD_bitOf]
  simp [h]

def bitmapClear : Bitmap := ⟨fun _ => 0#64⟩

def bitmapSet (bitmap : Bitmap) (index : Nat) : Bitmap :=
  bitmap.modifyWord (index / 64) fun w => w ||| bitOf index

def bitmapUnset (bitmap : Bitmap) (index : Nat) : Bitmap :=
  bitmap.modifyWord (index / 64) fun w => w &&& ~~~ bitOf index

def bitmapToggle (bitmap : Bitmap) (index : Nat) : Bitmap :=
  bitmap.modifyWord (index / 64) fun w => w ^^^ bitOf index

/-- The masked word, converted from `uint64_t` to `int`. -/
def bitmapTest (bitmap : Bitmap) (index : Nat) : BitVec 32 :=
  (bitmap.word (index / 64) &&& bitOf index).setWidth 32

/-- `BITMAP_CONST` with one initialiser; the remaining words are zero. -/
def bitmapConst (w : BitVec 64) : Bitmap := ⟨fun j => if j.val = 0 then w else 0#64⟩

/-- Below the width of `int` the test decides membership. -/
theorem bitmapTest_ne_zero_iff (b : Bitmap) {index : Nat} (h : index < 32) :
    bitmapTest b index ≠ 0#32 ↔ b.has index = true := by
  have hdiv : index / 64 = 0 := by omega
  have hmod : index % 64 = index := by omega
  simp only [bitmapTest, Bitmap.has, hdiv, hmod]
  constructor
  · intro hne
    by_contra hbit
    apply hne
    apply BitVec.eq_of_getLsbD_eq
    intro k hk
    simp only [BitVec.getLsbD_setWidth, BitVec.getLsbD_and, getLsbD_bitOf, hmod,
      BitVec.getLsbD_zero]
    by_cases heq : k = index
    · subst k
      simp [hbit]
    · simp [heq]
  · intro hbit heq
    have hk := congrArg (fun w => w.getLsbD index) heq
    simp only [BitVec.getLsbD_setWidth, BitVec.getLsbD_and, getLsbD_bitOf, hmod, hbit,
      BitVec.getLsbD_zero] at hk
    simp [h, show index < 64 by omega] at hk

theorem bitmapTest_eq_zero_iff (b : Bitmap) {index : Nat} (h : index < 32) :
    bitmapTest b index = 0#32 ↔ b.has index = false := by
  rw [← Bool.not_eq_true, ← bitmapTest_ne_zero_iff b h, not_not]

/-- The test drops the high half of a word, whatever is stored there. -/
theorem bitmapTest_eq_zero_of_le (b : Bitmap) {index : Nat} (h : 32 ≤ index % 64) :
    bitmapTest b index = 0#32 := by
  apply BitVec.eq_of_getLsbD_eq
  intro k hk
  have hne : k ≠ index % 64 := by omega
  simp [bitmapTest, hne]

/-- A write that combines every bit of a word with the bit of one index, and leaves the other
bits as they are, changes the answer for that index only. -/
theorem has_modifyWord (b : Bitmap) {f : BitVec 64 → BitVec 64} (combine : Bool → Bool → Bool)
    {index other : Nat} (hother : other < bitmapMaxLen)
    (hbits : ∀ w k, k < 64 →
      (f w).getLsbD k = combine (w.getLsbD k) (decide (k = index % 64)))
    (hkeep : ∀ bit, combine bit false = bit) :
    (b.modifyWord (index / 64) f).has other =
      combine (b.has other) (decide (other = index)) := by
  have hword : other / 64 < bitmapMaxLen / 64 + 1 := by
    simp only [bitmapMaxLen] at *
    omega
  have hmod : other % 64 < 64 := Nat.mod_lt _ (by decide)
  simp only [Bitmap.has, Bitmap.word_modifyWord b f hword]
  by_cases hdiv : other / 64 = index / 64
  · have hiff : other % 64 = index % 64 ↔ other = index := by omega
    rw [if_pos hdiv, hbits _ _ hmod]
    simp only [hiff]
  · have hne : other ≠ index := by
      rintro rfl
      exact hdiv rfl
    rw [if_neg hdiv, decide_eq_false hne, hkeep]

section OneIndex

variable (b : Bitmap) {index other : Nat} (hother : other < bitmapMaxLen)

include hother

/-- Setting one index changes the answer for that index only. -/
theorem has_bitmapSet :
    (bitmapSet b index).has other = (b.has other || decide (other = index)) := by
  apply has_modifyWord b or hother
  · intro w k hk
    simp [hk, getElem_bitOf]
  · exact Bool.or_false

/-- Unsetting one index changes the answer for that index only. -/
theorem has_bitmapUnset :
    (bitmapUnset b index).has other = (b.has other && !decide (other = index)) := by
  apply has_modifyWord b (fun bit hit => bit && !hit) hother
  · intro w k hk
    simp [hk, getElem_bitOf]
  · exact Bool.and_true

/-- Toggling one index changes the answer for that index only. -/
theorem has_bitmapToggle :
    (bitmapToggle b index).has other = (b.has other ^^ decide (other = index)) := by
  apply has_modifyWord b xor hother
  · intro w k hk
    simp [hk, getElem_bitOf]
  · exact Bool.xor_false

end OneIndex

end SecureGateway
