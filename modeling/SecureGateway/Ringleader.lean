import SecureGateway.Library.BoundedQueue
import Mathlib.Data.List.GetD

/-!
# The ringleader receive ring

`ringleader_tcp_recv_cb` copies a received packet behind the head of a ring in which
equal indices mean that nothing is unread. A packet that runs past the end of the ring
is copied in two parts.

## Implementation notes

The callbacks of completed receives run inside `ringleader_tcp_tick`; here each is a
step of its own. A byte is what the caller stores of the `int` it is given.
-/

namespace SecureGateway

open Library

/-- `MAVLINK_MAX_PACKET_SIZE`. -/
def mavlinkMaxPacketSize : Nat := 512

/-- `MAVLINK_RECV_PACKET_DEPTH`. -/
def mavlinkRecvPacketDepth : Nat := 16

def readySize : Nat := mavlinkMaxPacketSize * mavlinkRecvPacketDepth

theorem readySize_eq : readySize = 8192 := rfl

/-- `x & (READY_SIZE - 1)`. -/
def readyMask (x : Nat) : Nat := x &&& (readySize - 1)

theorem readyMask_eq (x : Nat) : readyMask x = x % readySize :=
  Nat.and_two_pow_sub_one_eq_mod x 13

theorem readyMask_lt (x : Nat) : readyMask x < readySize := by
  rw [readyMask_eq]
  exact Nat.mod_lt _ (by decide)

/-- The receive ring of `struct mavlink_rl`. -/
structure ReadyRing where
  ready : Nat → UInt8
  readyHead : Nat
  readyTail : Nat
  head_lt : readyHead < readySize
  tail_lt : readyTail < readySize

/-- `memcpy(cells + dst, src, n)`. -/
def memcpy (cells : Nat → UInt8) (dst : Nat) (src : List UInt8) (n : Nat) : Nat → UInt8 :=
  fun j => if dst ≤ j ∧ j < dst + n then src.getD (j - dst) (cells j) else cells j

/-- How much one iteration copies. -/
def toCopy (ring : ReadyRing) (length : Nat) : Nat := min length (readySize - ring.readyHead)

/-- One iteration of the loop of `ringleader_tcp_recv_cb`. -/
def recvCopy (ring : ReadyRing) (packet : List UInt8) (length : Nat) : ReadyRing :=
  let newHead := readyMask (ring.readyHead + toCopy ring length)
  { ready := memcpy ring.ready ring.readyHead packet (toCopy ring length)
    readyHead := newHead
    readyTail :=
      if (ring.readyHead < ring.readyTail ∧ newHead ≥ ring.readyTail) ∨
          (newHead ≥ ring.readyTail ∧ newHead < ring.readyHead) then
        readyMask (newHead + 1)
      else ring.readyTail
    head_lt := readyMask_lt _
    tail_lt := by
      split
      · exact readyMask_lt _
      · exact ring.tail_lt }

/-- The loop of `ringleader_tcp_recv_cb`; it reads the packet from its start each time. -/
def recvLoop (ring : ReadyRing) (packet : List UInt8) (length : Nat) : ReadyRing :=
  if length = 0 then ring
  else recvLoop (recvCopy ring packet length) packet (length - toCopy ring length)
termination_by length
decreasing_by
  have hhead := ring.head_lt
  simp only [toCopy]
  omega

/-- `ringleader_tcp_recv_cb` for a completion that carries the packet. -/
def ringleaderTcpRecvCb (ring : ReadyRing) (packet : List UInt8) : ReadyRing :=
  if packet.length > 0 then recvLoop ring packet packet.length else ring

def ringleaderTcpHasMore (ring : ReadyRing) : Bool := ring.readyHead != ring.readyTail

def ringleaderTcpReadByte (ring : ReadyRing) : UInt8 × ReadyRing :=
  (ring.ready ring.readyTail,
    { ring with
      readyTail := readyMask (ring.readyTail + 1)
      tail_lt := readyMask_lt _ })

/-- `hook_ringleader_tcp`: the array is not initialized. -/
def hookReady (ready : Nat → UInt8) : ReadyRing where
  ready := ready
  readyHead := 0
  readyTail := 0
  head_lt := by decide
  tail_lt := by decide

/-! ### The unread bytes -/

/-- How many cells lie from the tail up to the head, cyclically. -/
def ReadyRing.size (ring : ReadyRing) : Nat :=
  if ring.readyTail ≤ ring.readyHead then ring.readyHead - ring.readyTail
  else ring.readyHead + readySize - ring.readyTail

def ReadyRing.unread (ring : ReadyRing) : List UInt8 :=
  window ring.ready readySize ring.readyTail ring.size

theorem ReadyRing.size_le (ring : ReadyRing) : ring.size ≤ readySize - 1 := by
  have hhead := ring.head_lt
  have htail := ring.tail_lt
  unfold ReadyRing.size
  split <;> omega

theorem ReadyRing.tail_add_size (ring : ReadyRing) :
    (ring.readyTail + ring.size) % readySize = ring.readyHead := by
  have hhead := ring.head_lt
  have htail := ring.tail_lt
  unfold ReadyRing.size
  rw [readySize_eq] at *
  split <;> omega

theorem ringleaderTcpHasMore_iff (ring : ReadyRing) :
    ringleaderTcpHasMore ring = true ↔ ring.unread ≠ [] := by
  have hhead := ring.head_lt
  have htail := ring.tail_lt
  have hsize : ring.unread = [] ↔ ring.size = 0 := by
    rw [← List.length_eq_zero_iff, ReadyRing.unread, length_window]
  rw [ne_eq, hsize, ringleaderTcpHasMore, bne_iff_ne, ReadyRing.size]
  split <;> omega

theorem ringleaderTcpReadByte_spec {ring : ReadyRing} (h : ring.unread ≠ []) :
    ring.unread =
      (ringleaderTcpReadByte ring).1 :: (ringleaderTcpReadByte ring).2.unread := by
  have hhead := ring.head_lt
  have htail := ring.tail_lt
  have hpos : ring.size ≠ 0 := by
    intro hzero
    apply h
    rw [ReadyRing.unread, hzero, window_zero]
  obtain ⟨n, hn⟩ := Nat.exists_eq_succ_of_ne_zero hpos
  have hafter : (ringleaderTcpReadByte ring).2.size = n := by
    simp only [ReadyRing.size, ringleaderTcpReadByte, readyMask_eq, readySize_eq] at *
    split at hn <;> split <;> omega
  rw [ReadyRing.unread, hn, Nat.succ_eq_add_one, window_succ_cons, Nat.mod_eq_of_lt htail,
    ReadyRing.unread, hafter]
  simp only [ringleaderTcpReadByte, readyMask_eq]

/-! ### What a packet does -/

/-- Where the copy goes right: the packet ends before the end of the ring, or nothing unread
lies between the head and that end and the bytes that belong at the start of the ring are
those the packet starts with. -/
def Advances (ring : ReadyRing) (packet : List UInt8) : Prop :=
  ring.readyHead + packet.length < readySize ∨
    ring.readyTail ≤ ring.readyHead ∧
      ∀ i < ring.readyHead + packet.length - readySize,
        packet[readySize - ring.readyHead + i]? = packet[i]?

theorem recvLoop_single {ring : ReadyRing} {packet : List UInt8} {length : Nat}
    (hpos : 0 < length) (hend : ring.readyHead + length ≤ readySize) :
    recvLoop ring packet length = recvCopy ring packet length := by
  have hcopy : toCopy ring length = length := by
    simp only [toCopy]
    omega
  rw [recvLoop, if_neg (by omega), hcopy, Nat.sub_self, recvLoop, if_pos rfl]

theorem recvLoop_double {ring : ReadyRing} {packet : List UInt8} {length : Nat}
    (hend : readySize < ring.readyHead + length) (hlen : length ≤ readySize) :
    recvLoop ring packet length =
      recvCopy (recvCopy ring packet length) packet (ring.readyHead + length - readySize) := by
  have hhead := ring.head_lt
  have hcopy : toCopy ring length = readySize - ring.readyHead := by
    simp only [toCopy]
    omega
  have hrest : length - (readySize - ring.readyHead) = ring.readyHead + length - readySize := by
    omega
  have hzero : (recvCopy ring packet length).readyHead = 0 := by
    simp only [recvCopy, hcopy, readyMask_eq]
    rw [Nat.add_sub_cancel' (by omega), Nat.mod_self]
  rw [recvLoop, if_neg (by omega), hcopy, hrest]
  apply recvLoop_single
  · omega
  · rw [hzero]
    omega

/-- How far a cell lies behind the head, cyclically. -/
def ReadyRing.offset (ring : ReadyRing) (j : Nat) : Nat :=
  if ring.readyHead ≤ j then j - ring.readyHead else j + readySize - ring.readyHead

/-- What a cell holds once the packet is where it belongs. -/
theorem place_ready (ring : ReadyRing) {packet : List UInt8} (hlen : packet.length ≤ readySize)
    {j : Nat} (hj : j < readySize) :
    place ring.ready readySize (ring.readyTail + ring.size) packet j =
      packet.getD (ring.offset j) (ring.ready j) := by
  have hhead := ring.head_lt
  have hoffset : ring.offset j < readySize := by
    unfold ReadyRing.offset
    split <;> omega
  have hcell : (ring.readyTail + ring.size + ring.offset j) % readySize = j := by
    rw [← Nat.mod_add_mod, ring.tail_add_size]
    unfold ReadyRing.offset
    rw [readySize_eq] at *
    split <;> omega
  calc
    place ring.ready readySize (ring.readyTail + ring.size) packet j
        = place ring.ready readySize (ring.readyTail + ring.size) packet
            ((ring.readyTail + ring.size + ring.offset j) % readySize) := by rw [hcell]
    _ = packet.getD (ring.offset j)
          (ring.ready ((ring.readyTail + ring.size + ring.offset j) % readySize)) :=
      place_apply ring.ready hlen hoffset
    _ = packet.getD (ring.offset j) (ring.ready j) := by rw [hcell]

/-- A ring whose indices are right holds the queue exactly when its cells are right. -/
theorem unread_eq_iff {ring after : ReadyRing} {packet : List UInt8}
    (htail : after.readyTail =
      (ring.readyTail + (ring.size + packet.length - (readySize - 1))) % readySize)
    (hsize : after.size = min (ring.size + packet.length) (readySize - 1)) :
    after.unread = keepLast (readySize - 1) (ring.unread ++ packet) ↔
      ∀ i < after.size, after.ready ((after.readyTail + i) % readySize) =
        place ring.ready readySize (ring.readyTail + ring.size) packet
          ((after.readyTail + i) % readySize) := by
  have hqueue : keepLast (readySize - 1) (ring.unread ++ packet) =
      window (place ring.ready readySize (ring.readyTail + ring.size) packet) readySize
        after.readyTail after.size := by
    rw [ReadyRing.unread, keepLast_window_append ring.ready ring.size_le (by decide) packet,
      hsize, htail, window_mod]
  rw [hqueue, ReadyRing.unread, window_eq_iff]

/-- A packet that ends before the end of the ring, or exactly there with nothing unread in
front of it, arrives. -/
theorem recvCopy_unread {ring : ReadyRing} {packet : List UInt8} (hpos : 0 < packet.length)
    (hlen : packet.length < readySize)
    (hend : ring.readyHead + packet.length < readySize ∨
      ring.readyHead + packet.length = readySize ∧ ring.readyTail ≤ ring.readyHead) :
    (recvCopy ring packet packet.length).unread =
      keepLast (readySize - 1) (ring.unread ++ packet) := by
  have hhead := ring.head_lt
  have htail := ring.tail_lt
  have hcopy : toCopy ring packet.length = packet.length := by
    simp only [toCopy]
    omega
  apply (unread_eq_iff _ _).mpr
  · intro i _
    have hj : ((recvCopy ring packet packet.length).readyTail + i) % readySize < readySize :=
      Nat.mod_lt _ (by decide)
    revert hj
    generalize ((recvCopy ring packet packet.length).readyTail + i) % readySize = j
    intro hj
    rw [place_ready ring (Nat.le_of_lt hlen) hj]
    simp only [recvCopy, hcopy, memcpy, ReadyRing.offset]
    by_cases hbehind : ring.readyHead ≤ j
    · rw [if_pos hbehind]
      by_cases hin : j < ring.readyHead + packet.length
      · rw [if_pos ⟨hbehind, hin⟩]
      · rw [if_neg (by omega), List.getD_eq_default _ _ (by omega)]
    · rw [if_neg hbehind, if_neg (by omega), List.getD_eq_default _ _ (by omega)]
  · simp only [recvCopy, hcopy, readyMask_eq, ReadyRing.size, readySize_eq] at *
    split_ifs <;> omega
  · simp only [recvCopy, hcopy, readyMask_eq, ReadyRing.size, readySize_eq] at *
    split_ifs <;> omega

/-! ### Packets that run past the end -/

section Crossing

variable {ring : ReadyRing} {packet : List UInt8}

/-- The ring after a packet that runs past the end was copied in two parts. -/
def recvTwice (ring : ReadyRing) (packet : List UInt8) : ReadyRing :=
  recvCopy (recvCopy ring packet packet.length) packet
    (ring.readyHead + packet.length - readySize)

/-- The first part fills the ring up to its end. -/
theorem recvCopy_crossing (hlen : packet.length < readySize)
    (hend : readySize ≤ ring.readyHead + packet.length) :
    let first := recvCopy ring packet packet.length
    first.readyHead = 0 ∧
      first.readyTail = (if ring.readyTail = 0 then 1 else ring.readyTail) ∧
      first.ready = memcpy ring.ready ring.readyHead packet (readySize - ring.readyHead) := by
  have hhead := ring.head_lt
  have hcopy : toCopy ring packet.length = readySize - ring.readyHead := by
    simp only [toCopy]
    omega
  have hwrap : readyMask (ring.readyHead + (readySize - ring.readyHead)) = 0 := by
    rw [Nat.add_sub_cancel' (by omega), readyMask_eq, Nat.mod_self]
  simp only [recvCopy, hcopy, hwrap]
  refine ⟨trivial, ?_, trivial⟩
  have hone : readyMask (0 + 1) = 1 := rfl
  rw [hone]
  split_ifs <;> omega

/-- The second part is copied to the start of the ring, from the start of the packet. -/
theorem recvTwice_spec (hlen : packet.length < readySize)
    (hend : readySize < ring.readyHead + packet.length) :
    let rest := ring.readyHead + packet.length - readySize
    let tail := if ring.readyTail = 0 then 1 else ring.readyTail
    (recvTwice ring packet).readyHead = rest ∧
      (recvTwice ring packet).readyTail = (if tail ≤ rest then rest + 1 else tail) ∧
      (recvTwice ring packet).ready =
        memcpy (memcpy ring.ready ring.readyHead packet (readySize - ring.readyHead)) 0 packet
          rest := by
  have hhead := ring.head_lt
  obtain ⟨hzero, htail, hready⟩ := recvCopy_crossing hlen (Nat.le_of_lt hend)
  have hcopy : toCopy (recvCopy ring packet packet.length)
      (ring.readyHead + packet.length - readySize) =
        ring.readyHead + packet.length - readySize := by
    simp only [toCopy, hzero]
    omega
  have hmask (x : Nat) (hx : x < readySize) : readyMask x = x := by
    rw [readyMask_eq, Nat.mod_eq_of_lt hx]
  intro rest tail
  unfold recvTwice
  rw [recvCopy]
  simp only [hcopy, hzero, htail, hready, Nat.zero_add]
  rw [hmask _ (by omega), hmask _ (by omega)]
  refine ⟨rfl, ?_, rfl⟩
  have hpos : 0 < tail := by
    simp only [tail]
    split <;> omega
  change (if (0 < tail ∧ tail ≤ rest) ∨ (tail ≤ rest ∧ rest < 0) then rest + 1 else tail) = _
  split_ifs <;> omega

/-- What a cell holds once the packet was copied in two parts. -/
theorem recvTwice_ready (hlen : packet.length < readySize)
    (hend : readySize < ring.readyHead + packet.length) {j : Nat} (hj : j < readySize) :
    (recvTwice ring packet).ready j =
      packet.getD (if j < ring.readyHead + packet.length - readySize then j else ring.offset j)
        (ring.ready j) := by
  have hhead := ring.head_lt
  rw [(recvTwice_spec hlen hend).2.2]
  simp only [memcpy, ReadyRing.offset]
  by_cases hstart : j < ring.readyHead + packet.length - readySize
  · rw [if_pos ⟨Nat.zero_le j, by omega⟩, if_pos hstart, if_neg (by omega), Nat.sub_zero]
  · rw [if_neg (by omega), if_neg hstart]
    by_cases hbehind : ring.readyHead ≤ j
    · rw [if_pos ⟨hbehind, by omega⟩, if_pos hbehind]
    · rw [if_neg (by omega), if_neg hbehind, List.getD_eq_default _ _ (by omega)]

/-- With nothing unread between the head and the end of the ring, the packet arrives exactly
when its second part is what it starts with. -/
theorem recvTwice_unread_iff (hlen : packet.length < readySize)
    (hend : readySize < ring.readyHead + packet.length) (hle : ring.readyTail ≤ ring.readyHead) :
    (recvTwice ring packet).unread = keepLast (readySize - 1) (ring.unread ++ packet) ↔
      ∀ i < ring.readyHead + packet.length - readySize,
        packet[readySize - ring.readyHead + i]? = packet[i]? := by
  have hhead := ring.head_lt
  have hsmall := ring.tail_lt
  obtain ⟨hhead', htail', -⟩ := recvTwice_spec hlen hend
  have htail : (recvTwice ring packet).readyTail =
      (ring.readyTail + (ring.size + packet.length - (readySize - 1))) % readySize := by
    rw [htail', ReadyRing.size, if_pos hle]
    rw [readySize_eq] at hlen hend hhead hsmall ⊢
    split_ifs <;> omega
  have hsize : (recvTwice ring packet).size =
      min (ring.size + packet.length) (readySize - 1) := by
    rw [ReadyRing.size, hhead', htail', ReadyRing.size, if_pos hle]
    rw [readySize_eq] at hlen hend hhead hsmall ⊢
    split_ifs <;> omega
  have hcell (j : Nat) (hj : j < readySize) :
      (recvTwice ring packet).ready j =
          place ring.ready readySize (ring.readyTail + ring.size) packet j ↔
        (j < ring.readyHead + packet.length - readySize →
          packet[readySize - ring.readyHead + j]? = packet[j]?) := by
    rw [recvTwice_ready hlen hend hj, place_ready ring (Nat.le_of_lt hlen) hj]
    by_cases hstart : j < ring.readyHead + packet.length - readySize
    · have hoffset : ring.offset j = readySize - ring.readyHead + j := by
        unfold ReadyRing.offset
        rw [if_neg (by omega)]
        omega
      rw [if_pos hstart, hoffset, List.getD_eq_getElem _ _ (by omega),
        List.getD_eq_getElem _ _ (by omega), List.getElem?_eq_getElem (by omega),
        List.getElem?_eq_getElem (by omega), Option.some_inj]
      exact ⟨fun h _ => h.symm, fun h => (h hstart).symm⟩
    · rw [if_neg hstart]
      exact ⟨fun _ h => absurd h hstart, fun _ => rfl⟩
  rw [unread_eq_iff htail hsize]
  constructor
  · intro hall j hj
    -- the cells at the start of the ring are the last unread ones
    have hback : ((recvTwice ring packet).readyTail +
        ((recvTwice ring packet).size - (ring.readyHead + packet.length - readySize) + j)) %
          readySize = j := by
      have hsum := (recvTwice ring packet).tail_add_size
      rw [hhead'] at hsum
      rw [hsize, ReadyRing.size, if_pos hle] at hsum ⊢
      rw [readySize_eq] at *
      omega
    have hin : (recvTwice ring packet).size - (ring.readyHead + packet.length - readySize) + j <
        (recvTwice ring packet).size := by
      rw [hsize]
      omega
    have heq := hall _ hin
    rw [hback] at heq
    exact (hcell j (by omega)).mp heq hj
  · intro hsame i _
    exact (hcell _ (Nat.mod_lt _ (by decide))).mpr (hsame _)

/-- With unread bytes between the head and the end of the ring, a packet that reaches the end
overtakes the tail unnoticed and too little is left unread. -/
theorem recv_overtakes (hlen : packet.length < readySize)
    (hend : readySize ≤ ring.readyHead + packet.length) (hlt : ring.readyHead < ring.readyTail) :
    (ringleaderTcpRecvCb ring packet).unread.length <
      (keepLast (readySize - 1) (ring.unread ++ packet)).length := by
  have hhead := ring.head_lt
  have htail := ring.tail_lt
  have hqueue : (keepLast (readySize - 1) (ring.unread ++ packet)).length = readySize - 1 := by
    rw [length_keepLast, List.length_append, ReadyRing.unread, length_window, ReadyRing.size,
      if_neg (by omega)]
    omega
  rw [hqueue, ReadyRing.unread, length_window, ringleaderTcpRecvCb, if_pos (by omega)]
  rcases Nat.eq_or_lt_of_le hend with hexact | hover
  · obtain ⟨hhead', htail', -⟩ := recvCopy_crossing hlen hend
    rw [recvLoop_single (by omega) (Nat.le_of_eq hexact.symm), ReadyRing.size, hhead', htail',
      if_neg (show ring.readyTail ≠ 0 by omega), if_neg (by omega)]
    omega
  · obtain ⟨hhead', htail', -⟩ := recvTwice_spec hlen hover
    rw [recvLoop_double hover (Nat.le_of_lt hlen), ← recvTwice, ReadyRing.size, hhead', htail',
      if_neg (show ring.readyTail ≠ 0 by omega), if_neg (show ¬ ring.readyTail ≤ _ by omega),
      if_neg (by omega)]
    omega

/-- The callback does to the unread bytes what a bounded queue does exactly when it advances. -/
theorem recv_unread_iff (hpos : 0 < packet.length) (hlen : packet.length < readySize) :
    (ringleaderTcpRecvCb ring packet).unread =
        keepLast (readySize - 1) (ring.unread ++ packet) ↔ Advances ring packet := by
  by_cases hroom : ring.readyHead + packet.length < readySize
  · -- the packet ends before the end of the ring
    rw [ringleaderTcpRecvCb, if_pos hpos, recvLoop_single hpos (Nat.le_of_lt hroom)]
    exact ⟨fun _ => Or.inl hroom, fun _ => recvCopy_unread hpos hlen (Or.inl hroom)⟩
  · rw [Advances, or_iff_right hroom]
    have hend : readySize ≤ ring.readyHead + packet.length := Nat.le_of_not_lt hroom
    by_cases hle : ring.readyTail ≤ ring.readyHead
    · rw [and_iff_right hle, ringleaderTcpRecvCb, if_pos hpos]
      rcases Nat.eq_or_lt_of_le hend with hexact | hover
      · rw [recvLoop_single hpos (Nat.le_of_eq hexact.symm)]
        refine ⟨fun _ i hi => absurd hi (by omega), fun _ => ?_⟩
        exact recvCopy_unread hpos hlen (Or.inr ⟨hexact.symm, hle⟩)
      · rw [recvLoop_double hover (Nat.le_of_lt hlen)]
        exact recvTwice_unread_iff hlen hover hle
    · have hshort := recv_overtakes hlen hend (Nat.lt_of_not_le hle)
      constructor
      · intro heq
        rw [heq] at hshort
        exact absurd hshort (Nat.lt_irrefl _)
      · rintro ⟨hle', -⟩
        exact absurd hle' hle

end Crossing

/-! ### Whole runs -/

/-- A packet as a receive completes with it. -/
abbrev RlPacket :=
  {packet : List UInt8 // 0 < packet.length ∧ packet.length ≤ mavlinkMaxPacketSize}

inductive RlCall
  | recv (packet : RlPacket)
  | hasMore
  | readByte

/-- The ring with its reader: whether the last `has_more` was positive and no byte was read
since, the bytes received and the bytes read. -/
structure RlState where
  ring : ReadyRing
  granted : Bool
  received : List UInt8
  read : List UInt8

def RlState.start (ready : Nat → UInt8) : RlState := ⟨hookReady ready, false, [], []⟩

def rlStep (s : RlState) : RlCall → Option RlState
  | .recv packet =>
      some { s with
             ring := ringleaderTcpRecvCb s.ring packet.val
             received := s.received ++ packet.val }
  | .hasMore => some { s with granted := ringleaderTcpHasMore s.ring }
  | .readByte =>
      some { s with
             ring := (ringleaderTcpReadByte s.ring).2
             granted := false
             read := s.read ++ [(ringleaderTcpReadByte s.ring).1] }

/-- Every packet advances the ring, and a byte is read only after `has_more` said so. -/
def RlState.Follows (s : RlState) : RlCall → Prop
  | .recv packet => Advances s.ring packet.val
  | .hasMore => True
  | .readByte => s.granted = true

/-- What a call means for the queue. -/
def rlTransfers : RlCall → List (Transfer UInt8)
  | .recv packet => [.offer packet.val]
  | .hasMore => []
  | .readByte => [.take]

/-- The ring holds the queue of the traffic. -/
structure RlState.Holds (s : RlState) (t : Traffic UInt8) : Prop where
  capacity : t.queue.capacity = readySize - 1
  unread : t.queue.items = s.ring.unread
  offered : t.offered = s.received
  taken : t.taken = s.read
  granted : s.granted = true → s.ring.unread ≠ []

theorem rlPacket_lt (packet : RlPacket) : packet.val.length < readySize :=
  Nat.lt_of_le_of_lt packet.property.2 (by decide)

theorem rlStep_simulates (s : RlState) (t : Traffic UInt8) (l : RlCall) (s' : RlState)
    (hholds : s.Holds t) (hfollows : s.Follows l) (hstep : rlStep s l = some s') :
    ∃ t', run Traffic.step t (rlTransfers l) = some t' ∧ s'.Holds t' := by
  cases l with
  | recv packet =>
      have hunread := (recv_unread_iff packet.property.1 (rlPacket_lt packet)).mpr hfollows
      cases hstep
      refine ⟨_, rfl, ?_⟩
      constructor
      · exact hholds.capacity
      · rw [hunread, BoundedQueue.append_items, hholds.capacity, hholds.unread]
      · rw [hholds.offered]
      · exact hholds.taken
      · intro _ hnil
        have hlen := congrArg List.length (hunread.symm.trans hnil)
        have hpos := packet.property.1
        rw [length_keepLast, List.length_append, List.length_nil, readySize_eq] at hlen
        omega
  | hasMore =>
      cases hstep
      exact ⟨t, rfl, hholds.capacity, hholds.unread, hholds.offered, hholds.taken,
        (ringleaderTcpHasMore_iff s.ring).mp⟩
  | readByte =>
      have hread := ringleaderTcpReadByte_spec (hholds.granted hfollows)
      have hitems := hholds.unread.trans hread
      cases hstep
      refine ⟨{ t with
        queue := t.queue.drop 1
        taken := t.taken ++ [(ringleaderTcpReadByte s.ring).1] }, ?_, ?_⟩
      · simp [rlTransfers, run, Traffic.step, hitems]
      · constructor
        · exact hholds.capacity
        · rw [BoundedQueue.drop_items, hitems]
          rfl
        · exact hholds.offered
        · rw [hholds.taken]
        · intro h
          cases h

theorem rlStart_holds (ready : Nat → UInt8) :
    (RlState.start ready).Holds (Traffic.start UInt8 (readySize - 1)) := by
  constructor
  · rfl
  · rfl
  · rfl
  · rfl
  · intro h
    cases h

/-- The receive ring appends a packet like a bounded overwriting queue exactly when it
advances. In every run whose packets all advance it, and that reads only after a positive
`has_more`, the ring is such a queue of `READY_SIZE - 1` bytes: what was read and what is
unread are received bytes in order, with only oldest ones missing, and none where every
packet fits. -/
theorem ringleader_boundedQueue_iff (ring : ReadyRing) (packet : RlPacket)
    (ready : Nat → UInt8) (calls : List RlCall) :
    ((ringleaderTcpRecvCb ring packet.val).unread =
        keepLast (readySize - 1) (ring.unread ++ packet.val) ↔ Advances ring packet.val) ∧
    ∀ s, Along rlStep RlState.Follows (RlState.start ready) calls →
      run rlStep (RlState.start ready) calls = some s →
      (∃ t, run Traffic.step (Traffic.start UInt8 (readySize - 1)) (calls.flatMap rlTransfers) =
          some t ∧ s.Holds t) ∧
        (s.read ++ s.ring.unread).Sublist s.received ∧
        (Along Traffic.step Traffic.Fits (Traffic.start UInt8 (readySize - 1))
            (calls.flatMap rlTransfers) → s.read ++ s.ring.unread = s.received) := by
  constructor
  · exact recv_unread_iff packet.property.1 (rlPacket_lt packet)
  · intro s halong hrun
    obtain ⟨t, htraffic, hholds⟩ := run_simulates rlStep RlState.Holds rlTransfers
      rlStep_simulates (rlStart_holds ready) halong hrun
    refine ⟨⟨t, htraffic, hholds⟩, ?_⟩
    rw [← hholds.taken, ← hholds.unread, ← hholds.offered]
    exact ⟨Traffic.sublist htraffic, fun hfits => Traffic.lossless hfits htraffic⟩

/-- A packet of one byte that is read. -/
theorem ringleader_boundedQueue_read :
    ∃ s, run rlStep (RlState.start fun _ => 0)
      [.recv ⟨[7], by decide⟩, .hasMore, .readByte] = some s ∧
        (s.read ++ s.ring.unread).Sublist s.received := by
  refine ⟨_, rfl, ?_⟩
  refine ((ringleader_boundedQueue_iff (hookReady fun _ => 0) ⟨[7], by decide⟩ (fun _ => 0)
    [.recv ⟨[7], by decide⟩, .hasMore, .readByte]).2 _ ?_ rfl).2.1
  refine ⟨Or.inl (by decide), ?_⟩
  rintro s ⟨⟩
  refine ⟨trivial, ?_⟩
  rintro s ⟨⟩
  refine ⟨?_, fun _ _ => trivial⟩
  change ringleaderTcpHasMore (ringleaderTcpRecvCb _ [7]) = true
  rw [ringleaderTcpRecvCb, if_pos (by decide), recvLoop_single (by decide) (by decide)]
  decide

/-- An empty ring two cells before its end and a packet of three different bytes: the third
byte unread is the first again. -/
theorem ringleader_not_boundedQueue :
    ¬ ∀ (ring : ReadyRing) (packet : RlPacket),
      (ringleaderTcpRecvCb ring packet.val).unread =
        keepLast (readySize - 1) (ring.unread ++ packet.val) := by
  intro hall
  have heq := hall ⟨fun _ => 0, 8190, 8190, by decide, by decide⟩ ⟨[1, 2, 3], by decide⟩
  rcases (recv_unread_iff (by decide) (by decide)).mp heq with hroom | ⟨-, hsame⟩
  · exact absurd hroom (by decide)
  · exact absurd (hsame 0 (by decide)) (by decide)

end SecureGateway
