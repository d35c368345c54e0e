import SecureGateway.Library.Stores
import SecureGateway.Library.Window

/-!
# The ring buffer

`ring_buffer_t` keeps its bytes in an array it is given at initialization. Its
contents are the cells from the tail up to the head, read cyclically; pushing onto a
full ring drops the oldest byte.

## Implementation notes

Arrays are named by pointers `P`, and the memory holds the bytes of each, so two
users of one array share its cells. Indices stay below `max` by construction.
-/

namespace SecureGateway

open Library

/-- The bytes of every array. -/
abbrev Memory (P : Type) := P → Nat → UInt8

variable {P : Type}

/-- `array[index] = byte`. -/
def Memory.store [DecidableEq P] (mem : Memory P) (array : P) (index : Nat) (byte : UInt8) :
    Memory P :=
  Function.update mem array (Function.update (mem array) index byte)

@[simp] theorem Memory.store_self [DecidableEq P] (mem : Memory P) (array : P) (index : Nat)
    (byte : UInt8) :
    mem.store array index byte array = Function.update (mem array) index byte := by
  simp [Memory.store]

theorem Memory.store_of_ne [DecidableEq P] (mem : Memory P) {array other : P} (h : other ≠ array)
    (index : Nat) (byte : UInt8) : mem.store array index byte other = mem other := by
  simp [Memory.store, h]

/-- `struct ring_buffer_t`. -/
structure RingBuffer (P : Type) where
  buffer : P
  head : Nat
  tail : Nat
  max : Nat
  full : Bool
  head_lt : head < max
  tail_lt : tail < max
  full_eq : full = true → head = tail

def ringBufferInit (buffer : P) (size : Nat) (h : 0 < size) : RingBuffer P where
  buffer := buffer
  head := 0
  tail := 0
  max := size
  full := false
  head_lt := h
  tail_lt := h
  full_eq := by simp

def ringBufferIsEmpty (rb : RingBuffer P) : Bool :=
  !rb.full && rb.head == rb.tail

def ringBufferIsFull (rb : RingBuffer P) : Bool := rb.full

def ringBufferPush [DecidableEq P] (mem : Memory P) (rb : RingBuffer P) (byte : UInt8) :
    Memory P × RingBuffer P :=
  let head := (rb.head + 1) % rb.max
  let full := if head = rb.tail then true else rb.full
  let tail := if full then head else rb.tail
  have hhead : head < rb.max := Nat.mod_lt _ (Nat.zero_lt_of_lt rb.head_lt)
  (mem.store rb.buffer rb.head byte,
    { rb with
      head := head
      tail := tail
      full := full
      head_lt := hhead
      tail_lt := by
        show (if full = true then head else rb.tail) < rb.max
        split
        · exact hhead
        · exact rb.tail_lt
      full_eq := fun h => (if_pos h).symm })

/-- An empty ring gives zero and stays as it is. -/
def ringBufferPop (mem : Memory P) (rb : RingBuffer P) : UInt8 × RingBuffer P :=
  if ringBufferIsEmpty rb then (0, rb)
  else
    (mem rb.buffer rb.tail,
      { rb with
        tail := (rb.tail + 1) % rb.max
        full := false
        tail_lt := Nat.mod_lt _ (Nat.zero_lt_of_lt rb.tail_lt)
        full_eq := by simp })

def ringBufferSize (rb : RingBuffer P) : Nat :=
  if !rb.full then
    if rb.tail ≤ rb.head then rb.head - rb.tail else rb.max + rb.head - rb.tail
  else rb.max

/-- One iteration of the loop of `ring_buffer_copy_from`; it is the body of a push. -/
def ringBufferCopyByte [DecidableEq P] (buffer : P) (acc : Memory P × RingBuffer P) (i : Nat) :
    Memory P × RingBuffer P :=
  ringBufferPush acc.1 acc.2 (acc.1 buffer i)

def ringBufferCopyFrom [DecidableEq P] (mem : Memory P) (rb : RingBuffer P) (buffer : P)
    (size : Nat) : Memory P × RingBuffer P :=
  (List.range size).foldl (ringBufferCopyByte buffer) (mem, rb)

/-! ### The queue a ring stands for -/

/-- The unread bytes, oldest first. -/
def RingBuffer.contents (mem : Memory P) (rb : RingBuffer P) : List UInt8 :=
  window (mem rb.buffer) rb.max rb.tail (ringBufferSize rb)

@[simp] theorem RingBuffer.length_contents (mem : Memory P) (rb : RingBuffer P) :
    (rb.contents mem).length = ringBufferSize rb :=
  length_window _ _ _ _

theorem ringBufferSize_le (rb : RingBuffer P) : ringBufferSize rb ≤ rb.max := by
  have hhead := rb.head_lt
  have htail := rb.tail_lt
  unfold ringBufferSize
  split
  · split <;> omega
  · exact Nat.le_refl _

theorem ringBufferSize_eq_max_iff (rb : RingBuffer P) :
    ringBufferSize rb = rb.max ↔ rb.full = true := by
  have hhead := rb.head_lt
  have htail := rb.tail_lt
  unfold ringBufferSize
  cases rb.full with
  | true => simp
  | false =>
      simp only [Bool.not_false, if_true, Bool.false_eq_true, iff_false]
      split <;> omega

theorem ringBufferSize_eq_zero_iff (rb : RingBuffer P) :
    ringBufferSize rb = 0 ↔ ringBufferIsEmpty rb = true := by
  have hhead := rb.head_lt
  have htail := rb.tail_lt
  unfold ringBufferSize ringBufferIsEmpty
  cases rb.full with
  | true =>
      simp only [Bool.not_true, Bool.false_eq_true, if_false, Bool.false_and, iff_false]
      omega
  | false =>
      simp only [Bool.not_false, if_true, Bool.true_and, beq_iff_eq]
      split <;> omega

/-- The head is the cell after the contents. -/
theorem RingBuffer.head_eq (rb : RingBuffer P) :
    rb.head = (rb.tail + ringBufferSize rb) % rb.max := by
  have hhead := rb.head_lt
  have htail := rb.tail_lt
  have hfull := rb.full_eq
  unfold ringBufferSize
  cases h : rb.full with
  | true =>
      simp only [Bool.not_true, Bool.false_eq_true, if_false, Nat.add_mod_right]
      rw [Nat.mod_eq_of_lt htail]
      exact hfull h
  | false =>
      simp only [Bool.not_false, if_true]
      split
      · rename_i hle
        rw [Nat.add_sub_cancel' hle, Nat.mod_eq_of_lt hhead]
      · rename_i hlt
        have hsum : rb.tail + (rb.max + rb.head - rb.tail) = rb.head + rb.max := by omega
        rw [hsum, Nat.add_mod_right, Nat.mod_eq_of_lt hhead]

/-- The size is determined by where the head is. -/
theorem ringBufferSize_of_head_eq {rb : RingBuffer P} {n : Nat} (hn : n < rb.max)
    (hfull : rb.full = false) (hhead : rb.head = (rb.tail + n) % rb.max) :
    ringBufferSize rb = n := by
  have htail := rb.tail_lt
  unfold ringBufferSize
  simp only [hfull, Bool.not_false, if_true]
  by_cases hwrap : rb.tail + n < rb.max
  · rw [Nat.mod_eq_of_lt hwrap] at hhead
    rw [if_pos (by omega)]
    omega
  · have hmod : (rb.tail + n) % rb.max = rb.tail + n - rb.max := by
      rw [Nat.mod_eq_sub_mod (by omega), Nat.mod_eq_of_lt (by omega)]
    rw [hmod] at hhead
    rw [if_neg (by omega)]
    omega

@[simp] theorem ringBufferInit_contents (mem : Memory P) (buffer : P) (size : Nat)
    (h : 0 < size) : (ringBufferInit buffer size h).contents mem = [] := rfl

/-- A pop takes the oldest byte, or gives zero when there is none. -/
theorem ringBufferPop_contents (mem : Memory P) (rb : RingBuffer P) :
    (ringBufferPop mem rb).1 = (rb.contents mem).headD 0 ∧
      (ringBufferPop mem rb).2.contents mem = (rb.contents mem).tail := by
  have hsize := ringBufferSize_le rb
  by_cases hempty : ringBufferIsEmpty rb = true
  · have hzero := (ringBufferSize_eq_zero_iff rb).mpr hempty
    simp [ringBufferPop, hempty, RingBuffer.contents, hzero]
  · have hne := mt (ringBufferSize_eq_zero_iff rb).mp hempty
    obtain ⟨n, hn⟩ : ∃ n, ringBufferSize rb = n + 1 :=
      Nat.exists_eq_succ_of_ne_zero hne
    have hcontents : rb.contents mem = mem rb.buffer rb.tail ::
        window (mem rb.buffer) rb.max ((rb.tail + 1) % rb.max) n := by
      rw [RingBuffer.contents, hn, window_succ_cons, Nat.mod_eq_of_lt rb.tail_lt]
    have hafter : ringBufferSize (ringBufferPop mem rb).2 = n := by
      apply ringBufferSize_of_head_eq
      · simp only [ringBufferPop, if_neg hempty]
        omega
      · simp only [ringBufferPop, if_neg hempty]
      · simp only [ringBufferPop, if_neg hempty]
        rw [rb.head_eq, hn, Nat.mod_add_mod]
        congr 1
        omega
    rw [hcontents]
    refine ⟨by simp [ringBufferPop, hempty], ?_⟩
    rw [RingBuffer.contents, hafter]
    simp [ringBufferPop, hempty]

theorem ringBufferPop_ring (mem mem' : Memory P) (rb : RingBuffer P) :
    (ringBufferPop mem rb).2 = (ringBufferPop mem' rb).2 := by
  unfold ringBufferPop
  split <;> rfl

section Push

variable [DecidableEq P]

@[simp] theorem ringBufferPush_buffer (mem : Memory P) (rb : RingBuffer P) (byte : UInt8) :
    (ringBufferPush mem rb byte).2.buffer = rb.buffer := rfl

@[simp] theorem ringBufferPush_max (mem : Memory P) (rb : RingBuffer P) (byte : UInt8) :
    (ringBufferPush mem rb byte).2.max = rb.max := rfl

@[simp] theorem ringBufferPush_head (mem : Memory P) (rb : RingBuffer P) (byte : UInt8) :
    (ringBufferPush mem rb byte).2.head = (rb.head + 1) % rb.max := rfl

@[simp] theorem ringBufferPush_mem (mem : Memory P) (rb : RingBuffer P) (byte : UInt8) :
    (ringBufferPush mem rb byte).1 = mem.store rb.buffer rb.head byte := rfl

theorem ringBufferPush_full (mem : Memory P) (rb : RingBuffer P) (byte : UInt8) :
    (ringBufferPush mem rb byte).2.full =
      if (rb.head + 1) % rb.max = rb.tail then true else rb.full := rfl

theorem ringBufferPush_tail (mem : Memory P) (rb : RingBuffer P) (byte : UInt8) :
    (ringBufferPush mem rb byte).2.tail =
      if (ringBufferPush mem rb byte).2.full then (rb.head + 1) % rb.max else rb.tail := rfl

/-- A full ring stays full and its tail moves on by one. -/
theorem ringBufferPush_of_full (mem : Memory P) {rb : RingBuffer P} (h : rb.full = true)
    (byte : UInt8) :
    (ringBufferPush mem rb byte).2.tail = (rb.tail + 1) % rb.max ∧
      ringBufferSize (ringBufferPush mem rb byte).2 = rb.max := by
  have hnew : (ringBufferPush mem rb byte).2.full = true := by
    rw [ringBufferPush_full, h]
    split <;> rfl
  constructor
  · rw [ringBufferPush_tail, if_pos hnew, rb.full_eq h]
  · exact (ringBufferSize_eq_max_iff (ringBufferPush mem rb byte).2).mpr hnew

/-- A ring with room keeps its tail and grows by one. -/
theorem ringBufferPush_of_room (mem : Memory P) {rb : RingBuffer P}
    (h : ringBufferSize rb < rb.max) (byte : UInt8) :
    (ringBufferPush mem rb byte).2.tail = rb.tail ∧
      ringBufferSize (ringBufferPush mem rb byte).2 = ringBufferSize rb + 1 := by
  have hnext : (rb.head + 1) % rb.max = (rb.tail + (ringBufferSize rb + 1)) % rb.max := by
    rw [rb.head_eq, Nat.mod_add_mod, Nat.add_assoc]
  by_cases hlast : ringBufferSize rb + 1 = rb.max
  · -- the byte takes the last free cell
    have heq : (rb.head + 1) % rb.max = rb.tail := by
      rw [hnext, hlast, Nat.add_mod_right, Nat.mod_eq_of_lt rb.tail_lt]
    have hnew : (ringBufferPush mem rb byte).2.full = true := by
      rw [ringBufferPush_full, if_pos heq]
    refine ⟨by rw [ringBufferPush_tail, if_pos hnew, heq], ?_⟩
    rw [hlast]
    exact (ringBufferSize_eq_max_iff (ringBufferPush mem rb byte).2).mpr hnew
  · have hne : (rb.head + 1) % rb.max ≠ rb.tail := by
      have hcyclic :
          (rb.tail + 0) % rb.max ≠ (rb.tail + (ringBufferSize rb + 1)) % rb.max :=
        cyclic_ne (by omega) (by omega)
      rw [Nat.add_zero, Nat.mod_eq_of_lt rb.tail_lt, ← hnext] at hcyclic
      exact hcyclic.symm
    have hold : rb.full = false := by
      rw [← Bool.not_eq_true, ← ringBufferSize_eq_max_iff]
      omega
    have hnew : (ringBufferPush mem rb byte).2.full = false := by
      rw [ringBufferPush_full, if_neg hne, hold]
    have hkept : (ringBufferPush mem rb byte).2.tail = rb.tail := by
      rw [ringBufferPush_tail, if_neg (by simp [hnew])]
    refine ⟨hkept, ringBufferSize_of_head_eq ?_ hnew ?_⟩
    · rw [ringBufferPush_max]
      omega
    · rw [ringBufferPush_head, hkept, ringBufferPush_max, hnext]

/-- A push appends the byte, dropping the oldest when the ring was full. -/
theorem ringBufferPush_contents (mem : Memory P) (rb : RingBuffer P) (byte : UInt8) :
    (ringBufferPush mem rb byte).2.contents (ringBufferPush mem rb byte).1 =
      keepLast rb.max (rb.contents mem ++ [byte]) := by
  have hpos : 0 < rb.max := Nat.zero_lt_of_lt rb.head_lt
  have hsize := ringBufferSize_le rb
  have hcells : (ringBufferPush mem rb byte).1 rb.buffer =
      Function.update (mem rb.buffer) rb.head byte := by
    rw [ringBufferPush_mem, Memory.store_self]
  rw [RingBuffer.contents, ringBufferPush_buffer, ringBufferPush_max, hcells]
  by_cases hfull : rb.full = true
  · obtain ⟨htail, hsize'⟩ := ringBufferPush_of_full mem hfull byte
    have hold : ringBufferSize rb = rb.max := (ringBufferSize_eq_max_iff rb).mpr hfull
    have hhead : rb.head = rb.tail % rb.max := by
      rw [Nat.mod_eq_of_lt rb.tail_lt]
      exact rb.full_eq hfull
    rw [htail, hsize', hhead]
    calc
      window (Function.update (mem rb.buffer) (rb.tail % rb.max) byte) rb.max
          ((rb.tail + 1) % rb.max) rb.max
          = (window (mem rb.buffer) rb.max rb.tail rb.max).drop 1 ++ [byte] :=
        window_update_full _ hpos byte
      _ = (rb.contents mem).drop 1 ++ [byte] := by
        rw [RingBuffer.contents, hold]
      _ = keepLast rb.max (rb.contents mem ++ [byte]) :=
        (keepLast_append_singleton hpos (by rw [RingBuffer.length_contents, hold]) byte).symm
  · have hroom : ringBufferSize rb < rb.max := by
      have hne := mt (ringBufferSize_eq_max_iff rb).mp hfull
      omega
    obtain ⟨htail, hsize'⟩ := ringBufferPush_of_room mem hroom byte
    rw [htail, hsize', rb.head_eq, window_update_append _ hroom, ← RingBuffer.contents,
      keepLast_of_length_le]
    rw [List.length_append, RingBuffer.length_contents, List.length_singleton]
    omega

/-! ### Copying a chunk -/

/-- The stores a copy makes into the ring's array, in order. -/
def copyStores (mem : Memory P) (rb : RingBuffer P) (buffer : P) (size : Nat) :
    List (Nat × UInt8) :=
  (List.range size).map fun i => ((rb.head + i) % rb.max, mem buffer i)

theorem ringBufferCopyFrom_succ (mem : Memory P) (rb : RingBuffer P) (buffer : P) (n : Nat) :
    ringBufferCopyFrom mem rb buffer (n + 1) =
      ringBufferCopyByte buffer (ringBufferCopyFrom mem rb buffer n) n := by
  simp [ringBufferCopyFrom, List.range_succ, List.foldl_append]

/-- How a copy moves the ring does not depend on the bytes. -/
theorem ringBufferCopyFrom_ring (mem mem' : Memory P) (rb : RingBuffer P) (buffer : P)
    (size : Nat) :
    (ringBufferCopyFrom mem rb buffer size).2 = (ringBufferCopyFrom mem' rb buffer size).2 := by
  induction size with
  | zero => rfl
  | succ n ih =>
      rw [ringBufferCopyFrom_succ, ringBufferCopyFrom_succ, ringBufferCopyByte,
        ringBufferCopyByte, ih]
      rfl

/-- What a copy from another array leaves alone and what it stores. -/
theorem ringBufferCopyFrom_spec (mem : Memory P) (rb : RingBuffer P) {buffer : P}
    (hne : buffer ≠ rb.buffer) (size : Nat) :
    let after := ringBufferCopyFrom mem rb buffer size
    after.2.buffer = rb.buffer ∧ after.2.max = rb.max ∧
      after.2.head = (rb.head + size) % rb.max ∧
      after.1 buffer = mem buffer ∧
      after.1 rb.buffer = applyStores (mem rb.buffer) (copyStores mem rb buffer size) := by
  induction size with
  | zero => exact ⟨rfl, rfl, (Nat.mod_eq_of_lt rb.head_lt).symm, rfl, rfl⟩
  | succ n ih =>
      obtain ⟨hbuffer, hmax, hhead, hother, hcells⟩ := ih
      have hstores : copyStores mem rb buffer (n + 1) =
          copyStores mem rb buffer n ++ [((rb.head + n) % rb.max, mem buffer n)] := by
        simp [copyStores, List.range_succ]
      simp only [ringBufferCopyFrom_succ, ringBufferCopyByte, ringBufferPush_mem,
        ringBufferPush_buffer, ringBufferPush_max, ringBufferPush_head, hbuffer, hmax, hhead]
      refine ⟨trivial, trivial, by rw [Nat.mod_add_mod, Nat.add_assoc], ?_, ?_⟩
      · rw [Memory.store_of_ne _ hne, hother]
      · rw [Memory.store_self, hcells, hother, hstores, applyStores_append]
        rfl

/-- A copy appends the chunk, dropping the oldest bytes that no longer fit. -/
theorem ringBufferCopyFrom_contents (mem : Memory P) (rb : RingBuffer P) {buffer : P}
    (hne : buffer ≠ rb.buffer) (size : Nat) :
    (ringBufferCopyFrom mem rb buffer size).2.contents
        (ringBufferCopyFrom mem rb buffer size).1 =
      keepLast rb.max (rb.contents mem ++ (List.range size).map (mem buffer)) := by
  induction size with
  | zero =>
      have hle := ringBufferSize_le rb
      rw [List.range_zero, List.map_nil, List.append_nil, keepLast_of_length_le]
      · rfl
      · rw [RingBuffer.length_contents]
        exact hle
  | succ n ih =>
      obtain ⟨-, hmax, -, hother, -⟩ := ringBufferCopyFrom_spec mem rb hne n
      rw [ringBufferCopyFrom_succ, ringBufferCopyByte, ringBufferPush_contents, ih, hmax, hother]
      calc
        keepLast rb.max (keepLast rb.max (rb.contents mem ++ (List.range n).map (mem buffer)) ++
            [mem buffer n])
            = keepLast rb.max (rb.contents mem ++ (List.range n).map (mem buffer) ++
                [mem buffer n]) := keepLast_keepLast_append _ _ _
        _ = keepLast rb.max (rb.contents mem ++ (List.range (n + 1)).map (mem buffer)) := by
          rw [List.append_assoc, List.range_succ, List.map_append, List.map_singleton]

end Push

end SecureGateway
