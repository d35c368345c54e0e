import SecureGateway.Library.BoundedQueue
import SecureGateway.RingBuffer

/-!
# The ring buffer as a bounded queue

Every operation of `ring_buffer_t` does to the contents of the ring what the
operation of a bounded overwriting queue does to its entries, and gives the same
reply. The observers see the number of entries.

## Implementation notes

An operation whose assertion fails has no successor state. A bulk operation
exchanges bytes with an array of the caller, which is never the array of the ring.
-/

namespace SecureGateway

open Library

section Operations

variable {P : Type}

theorem RingBuffer.max_pos (rb : RingBuffer P) : 0 < rb.max :=
  Nat.zero_lt_of_lt rb.head_lt

/-- Both indices are zero in a ring that is not marked full. -/
theorem reset_full_eq : false = true → 0 = 0 := fun _ => rfl

def ringBufferReset (rb : RingBuffer P) : RingBuffer P where
  buffer := rb.buffer
  head := 0
  tail := 0
  max := rb.max
  full := false
  head_lt := rb.max_pos
  tail_lt := rb.max_pos
  full_eq := reset_full_eq

def ringBufferCapacity (rb : RingBuffer P) : Nat := rb.max

def ringBufferAvailable (rb : RingBuffer P) : Nat := rb.max - ringBufferSize rb

/-- The loop of `ring_buffer_copy_to` with `n` iterations left of its bound. What it does to
the ring in one iteration is a pop. It returns the number of bytes copied. -/
def ringBufferCopyTo [DecidableEq P] (mem : Memory P) (rb : RingBuffer P) (buffer : P) (i : Nat) :
    Nat → Memory P × RingBuffer P × Nat
  | 0 => (mem, rb, i)
  | n + 1 =>
      if ringBufferIsEmpty rb then (mem, rb, i)
      else
        ringBufferCopyTo (mem.store buffer i (mem rb.buffer rb.tail)) (ringBufferPop mem rb).2
          buffer (i + 1) n

@[simp] theorem ringBufferReset_contents (mem : Memory P) (rb : RingBuffer P) :
    (ringBufferReset rb).contents mem = [] := rfl

@[simp] theorem ringBufferPop_buffer (mem : Memory P) (rb : RingBuffer P) :
    (ringBufferPop mem rb).2.buffer = rb.buffer := by
  unfold ringBufferPop
  split <;> rfl

@[simp] theorem ringBufferPop_max (mem : Memory P) (rb : RingBuffer P) :
    (ringBufferPop mem rb).2.max = rb.max := by
  unfold ringBufferPop
  split <;> rfl

theorem ringBufferIsEmpty_iff (mem : Memory P) (rb : RingBuffer P) :
    ringBufferIsEmpty rb = true ↔ rb.contents mem = [] := by
  calc
    ringBufferIsEmpty rb = true ↔ (rb.contents mem).length = 0 := by
      rw [RingBuffer.length_contents, ringBufferSize_eq_zero_iff]
    _ ↔ rb.contents mem = [] := List.length_eq_zero_iff

/-- The contents of a ring are those of its own array. -/
theorem RingBuffer.contents_congr {mem mem' : Memory P} {rb : RingBuffer P}
    (h : mem' rb.buffer = mem rb.buffer) : rb.contents mem' = rb.contents mem := by
  rw [RingBuffer.contents, RingBuffer.contents, h]

/-- A pop of a ring that is not empty gives the byte at the tail. -/
theorem ringBufferPop_of_nonempty {mem : Memory P} {rb : RingBuffer P}
    (h : ringBufferIsEmpty rb ≠ true) :
    rb.contents mem = mem rb.buffer rb.tail :: (ringBufferPop mem rb).2.contents mem := by
  obtain ⟨hbyte, hrest⟩ := ringBufferPop_contents mem rb
  have hhead : (ringBufferPop mem rb).1 = mem rb.buffer rb.tail := by
    simp [ringBufferPop, h]
  rw [hhead] at hbyte
  cases hcontents : rb.contents mem with
  | nil => exact absurd ((ringBufferIsEmpty_iff mem rb).mpr hcontents) h
  | cons b bs =>
      rw [hrest, hbyte, hcontents]
      rfl

/-- What a copy into another array takes from the ring and where the bytes arrive. -/
theorem ringBufferCopyTo_spec [DecidableEq P] (mem : Memory P) (rb : RingBuffer P) {buffer : P}
    (hne : buffer ≠ rb.buffer) (i n : Nat) :
    let after := ringBufferCopyTo mem rb buffer i n
    after.2.1.buffer = rb.buffer ∧ after.2.1.max = rb.max ∧
      after.2.1.contents after.1 = (rb.contents mem).drop n ∧
      (List.range after.2.2).map (after.1 buffer) =
        (List.range i).map (mem buffer) ++ (rb.contents mem).take n := by
  induction n generalizing mem rb i with
  | zero => simp [ringBufferCopyTo]
  | succ n ih =>
      by_cases hempty : ringBufferIsEmpty rb = true
      · have hnil := (ringBufferIsEmpty_iff mem rb).mp hempty
        simp [ringBufferCopyTo, hempty, hnil]
      · -- the invariant of the loop at its next iteration
        have hbuffer : buffer ≠ (ringBufferPop mem rb).2.buffer := by
          rw [ringBufferPop_buffer]
          exact hne
        have hkept : (ringBufferPop mem rb).2.contents
            (mem.store buffer i (mem rb.buffer rb.tail)) =
              (ringBufferPop mem rb).2.contents mem := by
          apply RingBuffer.contents_congr
          exact Memory.store_of_ne mem hbuffer.symm _ _
        obtain ⟨h1, h2, h3, h4⟩ := ih (mem.store buffer i (mem rb.buffer rb.tail))
          (ringBufferPop mem rb).2 hbuffer (i + 1)
        rw [ringBufferPop_buffer] at h1
        rw [ringBufferPop_max] at h2
        rw [hkept] at h3 h4
        have hstored : (List.range (i + 1)).map
            (mem.store buffer i (mem rb.buffer rb.tail) buffer) =
              (List.range i).map (mem buffer) ++ [mem rb.buffer rb.tail] := by
          rw [List.range_succ, List.map_append, List.map_singleton, Memory.store_self,
            Function.update_self]
          congr 1
          apply List.map_congr_left
          intro j hj
          exact Function.update_of_ne (Nat.ne_of_lt (List.mem_range.mp hj)) _ _
        rw [hstored] at h4
        simp only [ringBufferCopyTo, if_neg hempty]
        refine ⟨h1, h2, ?_, ?_⟩
        · rw [h3, ringBufferPop_of_nonempty hempty, List.drop_succ_cons]
        · rw [h4, ringBufferPop_of_nonempty hempty, List.take_succ_cons, List.append_assoc,
            List.singleton_append]

end Operations

/-! ### Sequences of operations -/

variable {P : Type} [DecidableEq P]

/-- The arrays rings are initialized on, and the array a caller of a bulk operation passes. -/
inductive RingArray (P : Type)
  | own (p : P)
  | caller
deriving DecidableEq

/-- The operations that change a ring. -/
inductive RingOp (P : Type)
  | init (buffer : P) (size : Nat)
  | reset
  | push (byte : UInt8)
  | pop
  | copyTo (size : Nat)
  | copyFrom (xs : List UInt8)

/-- What an operation gives back. -/
inductive RingReply
  | done
  | byte (b : UInt8)
  | bytes (bs : List UInt8)
deriving DecidableEq

/-- A ring with the replies it gave so far. -/
structure RingState (P : Type) where
  mem : Memory (RingArray P)
  ring : RingBuffer (RingArray P)
  own : ring.buffer ≠ .caller
  replies : List RingReply

def RingState.start (mem : Memory (RingArray P)) (buffer : P) (max : Nat) (h : 0 < max) :
    RingState P where
  mem := mem
  ring := ringBufferInit (.own buffer) max h
  own := by
    intro h
    cases h
  replies := []

/-- The caller's array with the bytes it passes. -/
def Memory.fill (mem : Memory (RingArray P)) (xs : List UInt8) : Memory (RingArray P) :=
  Function.update mem .caller (overwrite (mem .caller) xs)

/-- One operation; an assertion that fails gives `none`. -/
def ringStep (s : RingState P) : RingOp P → Option (RingState P)
  | .init buffer size =>
      if h : 0 < size then
        some { mem := s.mem
               ring := ringBufferInit (.own buffer) size h
               own := by
                 intro h
                 cases h
               replies := s.replies ++ [.done] }
      else none
  | .reset =>
      some { s with ring := ringBufferReset s.ring, own := s.own, replies := s.replies ++ [.done] }
  | .push byte =>
      some { mem := (ringBufferPush s.mem s.ring byte).1
             ring := (ringBufferPush s.mem s.ring byte).2
             own := s.own
             replies := s.replies ++ [.done] }
  | .pop =>
      some { mem := s.mem
             ring := (ringBufferPop s.mem s.ring).2
             own := by
               rw [ringBufferPop_buffer]
               exact s.own
             replies := s.replies ++ [.byte (ringBufferPop s.mem s.ring).1] }
  | .copyTo size =>
      let after := ringBufferCopyTo s.mem s.ring .caller 0 size
      if 0 < size then
        some { mem := after.1
               ring := after.2.1
               own := by
                 rw [(ringBufferCopyTo_spec s.mem s.ring s.own.symm 0 size).1]
                 exact s.own
               replies := s.replies ++ [.bytes ((List.range after.2.2).map (after.1 .caller))] }
      else none
  | .copyFrom xs =>
      let after := ringBufferCopyFrom (s.mem.fill xs) s.ring .caller xs.length
      if 0 < xs.length then
        some { mem := after.1
               ring := after.2
               own := by
                 rw [(ringBufferCopyFrom_spec (s.mem.fill xs) s.ring s.own.symm xs.length).1]
                 exact s.own
               replies := s.replies ++ [.done] }
      else none

/-- A bounded queue with the replies it gave so far. -/
structure QueueState where
  queue : BoundedQueue UInt8
  replies : List RingReply

def QueueState.start (max : Nat) : QueueState := ⟨.empty max, []⟩

/-- What each operation means for the queue. -/
def queueStep (s : QueueState) : RingOp P → Option QueueState
  | .init _ size => if 0 < size then some ⟨.empty size, s.replies ++ [.done]⟩ else none
  | .reset => some ⟨.empty s.queue.capacity, s.replies ++ [.done]⟩
  | .push byte => some ⟨s.queue.append [byte], s.replies ++ [.done]⟩
  | .pop => some ⟨s.queue.drop 1, s.replies ++ [.byte (s.queue.items.headD 0)]⟩
  | .copyTo size =>
      if 0 < size then
        some ⟨s.queue.drop size, s.replies ++ [.bytes (s.queue.items.take size)]⟩
      else none
  | .copyFrom xs => if 0 < xs.length then some ⟨s.queue.append xs, s.replies ++ [.done]⟩ else none

/-- The queue a ring stands for. -/
def RingBuffer.queue {Q : Type} (mem : Memory Q) (rb : RingBuffer Q) : BoundedQueue UInt8 where
  capacity := rb.max
  items := rb.contents mem
  length_le := by
    rw [RingBuffer.length_contents]
    exact ringBufferSize_le rb

def RingState.view (s : RingState P) : QueueState := ⟨s.ring.queue s.mem, s.replies⟩

theorem Memory.fill_caller (mem : Memory (RingArray P)) (xs : List UInt8) :
    (List.range xs.length).map (mem.fill xs .caller) = xs := by
  rw [Memory.fill, Function.update_self, map_range_overwrite]

theorem Memory.fill_of_ne (mem : Memory (RingArray P)) (xs : List UInt8) {array : RingArray P}
    (h : array ≠ .caller) : mem.fill xs array = mem array :=
  Function.update_of_ne h _ _

/-- One operation on the ring is the operation on the queue it stands for. -/
theorem ringStep_view (s : RingState P) (op : RingOp P) :
    (ringStep s op).map RingState.view = queueStep s.view op := by
  cases op with
  | init buffer size =>
      by_cases h : 0 < size
      · simp only [ringStep, queueStep, dif_pos h, if_pos h, Option.map_some]
        rfl
      · simp only [ringStep, queueStep, dif_neg h, if_neg h, Option.map_none]
  | reset => rfl
  | push byte =>
      simp only [ringStep, queueStep, Option.map_some, RingState.view, Option.some.injEq,
        QueueState.mk.injEq, and_true]
      ext1
      · rfl
      · exact ringBufferPush_contents s.mem s.ring byte
  | pop =>
      obtain ⟨hbyte, hrest⟩ := ringBufferPop_contents s.mem s.ring
      simp only [ringStep, queueStep, Option.map_some, RingState.view, Option.some.injEq,
        QueueState.mk.injEq, hbyte]
      refine ⟨?_, rfl⟩
      ext1
      · exact ringBufferPop_max s.mem s.ring
      · change (ringBufferPop s.mem s.ring).2.contents s.mem = (s.ring.contents s.mem).drop 1
        rw [hrest, List.drop_one]
  | copyTo size =>
      obtain ⟨-, hmax, hrest, hbytes⟩ :=
        ringBufferCopyTo_spec s.mem s.ring s.own.symm 0 size
      by_cases h : 0 < size
      · simp only [ringStep, queueStep, if_pos h, Option.map_some, RingState.view,
          Option.some.injEq, QueueState.mk.injEq, hbytes]
        refine ⟨?_, rfl⟩
        ext1
        · exact hmax
        · exact hrest
      · simp only [ringStep, queueStep, if_neg h, Option.map_none]
  | copyFrom xs =>
      obtain ⟨-, hmax, -⟩ := ringBufferCopyFrom_spec (s.mem.fill xs) s.ring s.own.symm xs.length
      have hcontents := ringBufferCopyFrom_contents (s.mem.fill xs) s.ring s.own.symm xs.length
      have hsame : s.ring.contents (s.mem.fill xs) = s.ring.contents s.mem :=
        RingBuffer.contents_congr (Memory.fill_of_ne s.mem xs s.own)
      rw [hsame, Memory.fill_caller] at hcontents
      by_cases h : 0 < xs.length
      · simp only [ringStep, queueStep, if_pos h, Option.map_some, RingState.view,
          Option.some.injEq, QueueState.mk.injEq, and_true]
        ext1
        · exact hmax
        · exact hcontents
      · simp only [ringStep, queueStep, if_neg h, Option.map_none]

/-- The observers of a ring see the queue it stands for. -/
structure Observes {Q : Type} (rb : RingBuffer Q) (q : BoundedQueue UInt8) : Prop where
  isEmpty : ringBufferIsEmpty rb = decide (q.items.length = 0)
  isFull : ringBufferIsFull rb = decide (q.items.length = q.capacity)
  size : ringBufferSize rb = q.items.length
  capacity : ringBufferCapacity rb = q.capacity
  available : ringBufferAvailable rb = q.capacity - q.items.length
  head_lt : rb.head < q.capacity
  tail_lt : rb.tail < q.capacity

theorem observes_queue {Q : Type} (mem : Memory Q) (rb : RingBuffer Q) :
    Observes rb (rb.queue mem) := by
  have hlen : (rb.queue mem).items.length = ringBufferSize rb := rb.length_contents mem
  constructor
  · apply Bool.eq_iff_iff.mpr
    rw [decide_eq_true_iff, hlen, ringBufferSize_eq_zero_iff]
  · apply Bool.eq_iff_iff.mpr
    rw [decide_eq_true_iff, hlen]
    exact (ringBufferSize_eq_max_iff rb).symm
  · exact hlen.symm
  · rfl
  · rw [hlen]
    rfl
  · exact rb.head_lt
  · exact rb.tail_lt

omit [DecidableEq P] in
/-- An empty ring gives zero and nothing about it changes. -/
theorem ringBufferPop_of_empty {mem : Memory P} {rb : RingBuffer P}
    (h : (rb.queue mem).items = []) : ringBufferPop mem rb = (0, rb) := by
  have hempty := (ringBufferIsEmpty_iff mem rb).mpr h
  simp [ringBufferPop, hempty]

/-- The ring buffer refines the bounded overwriting queue: the same sequences of operations
are admitted, they give the same replies and lead to the ring that stands for the queue, and
at every point the observers see that queue. -/
theorem ringBuffer_refines_boundedQueue (mem : Memory (RingArray P)) (buffer : P) {max : Nat}
    (hmax : 0 < max) :
    (∀ ops, (run ringStep (RingState.start mem buffer max hmax) ops).map RingState.view =
      run queueStep (QueueState.start max) ops) ∧
    ∀ ops t, run ringStep (RingState.start mem buffer max hmax) ops = some t →
      Observes t.ring t.view.queue ∧
        (t.view.queue.items = [] → ringBufferPop t.mem t.ring = (0, t.ring)) := by
  constructor
  · exact run_map ringStep RingState.view ringStep_view (RingState.start mem buffer max hmax)
  · intro ops t _
    exact ⟨observes_queue t.mem t.ring, ringBufferPop_of_empty⟩

/-- A ring of one cell, overwritten in one bulk transfer. -/
theorem ringBuffer_refines_boundedQueue_one :
    let ops : List (RingOp Unit) := [.push 7, .copyFrom [1, 2, 3], .copyTo 4, .pop]
    (run ringStep (RingState.start (fun _ _ => 0) () 1 (by decide)) ops).map RingState.view =
      some ⟨.empty 1, [.done, .done, .bytes [3], .byte 0]⟩ := by
  intro ops
  rw [(ringBuffer_refines_boundedQueue (fun _ _ => 0) () (by decide)).1 ops]
  rfl

end SecureGateway
