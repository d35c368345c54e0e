import SecureGateway.Library.Run
import SecureGateway.RingBuffer
import SecureGateway.Wire

/-!
# The UART connection

`uart_state_init` gives the input ring the array `output_buffer`, and
`uart_route_to` encodes messages into the same array. A message that is sent may
therefore write over input that has not been read.

## Implementation notes

The device is what `read` delivers and `write` is handed. The ring of a connection is
on `output_buffer` by construction. Here each operation is one step; the threads are
modelled on top.
-/

namespace SecureGateway

open Library

/-- The arrays of the UART module. -/
inductive UartArray
  | uartInput
  | outputBuffer
deriving DecidableEq

/-- `sizeof(uart_input)`. -/
def uartInputSize : Nat := 256

/-- `sizeof(uart->output_buffer)`. -/
def outputBufferSize : Nat := 4096

/-- `struct uart_connection_t` once it is initialized. -/
structure UartConnection where
  mem : Memory UartArray
  inputBuffer : RingBuffer UartArray
  buffer_eq : inputBuffer.buffer = .outputBuffer
  max_eq : inputBuffer.max = outputBufferSize

/-- The contents of `output_buffer` before its first use are unknown. -/
def uartStateInit (mem : Memory UartArray) : UartConnection where
  mem := mem
  inputBuffer := ringBufferInit .outputBuffer outputBufferSize (by decide)
  buffer_eq := rfl
  max_eq := rfl

/-- `read(uart->fd, uart_input, ..)` delivers a chunk. -/
def uartServerRead (uart : UartConnection) (chunk : List UInt8) : UartConnection :=
  { uart with
    mem := Function.update uart.mem .uartInput
      fun j => chunk.getD j (uart.mem .uartInput j) }

theorem uartInput_ne_buffer (uart : UartConnection) :
    UartArray.uartInput ≠ uart.inputBuffer.buffer := by
  rw [uart.buffer_eq]
  decide

/-- `ring_buffer_copy_from(&uart->input_buffer, uart_input, bytes_read)`. -/
def uartServerAppend (uart : UartConnection) (bytesRead : Nat) : UartConnection where
  mem := (ringBufferCopyFrom uart.mem uart.inputBuffer .uartInput bytesRead).1
  inputBuffer := (ringBufferCopyFrom uart.mem uart.inputBuffer .uartInput bytesRead).2
  buffer_eq := by
    rw [(ringBufferCopyFrom_spec uart.mem uart.inputBuffer (uartInput_ne_buffer uart) _).1]
    exact uart.buffer_eq
  max_eq := by
    rw [(ringBufferCopyFrom_spec uart.mem uart.inputBuffer (uartInput_ne_buffer uart) _).2.1]
    exact uart.max_eq

def uartHasMore (uart : UartConnection) : Bool := !ringBufferIsEmpty uart.inputBuffer

def uartReadByte (uart : UartConnection) : UInt8 × UartConnection :=
  ((ringBufferPop uart.mem uart.inputBuffer).1,
    { mem := uart.mem
      inputBuffer := (ringBufferPop uart.mem uart.inputBuffer).2
      buffer_eq := by
        unfold ringBufferPop
        split <;> exact uart.buffer_eq
      max_eq := by
        unfold ringBufferPop
        split <;> exact uart.max_eq })

/-- `mavlink_msg_to_send_buffer(uart->output_buffer, &msg->msg)`, with the length it returns. -/
def uartEncode (codec : MavlinkCodec) (uart : UartConnection) (msg : MavlinkMessage) :
    UartConnection × Nat :=
  let frame := codec.msgToSendBuffer msg
  ({ uart with
     mem := Function.update uart.mem .outputBuffer
       fun j => frame.getD j (uart.mem .outputBuffer j) }, frame.length)

/-- The bytes `write(uart->fd, uart->output_buffer, len)` is handed. -/
def uartWrite (uart : UartConnection) (len : Nat) : List UInt8 :=
  (List.range len).map (uart.mem .outputBuffer)

/-- `uart_route_to`: the connection it leaves and the bytes it writes. -/
def uartRouteTo (codec : MavlinkCodec) (uart : UartConnection) (msg : MavlinkMessage) :
    UartConnection × List UInt8 :=
  let (uart, len) := uartEncode codec uart msg
  (uart, uartWrite uart len)

/-! ### Input that has not been read -/

/-- The bytes received and not yet read. -/
def UartConnection.pending (uart : UartConnection) : List UInt8 :=
  uart.inputBuffer.contents uart.mem

theorem pending_eq (uart : UartConnection) :
    uart.pending = window (uart.mem .outputBuffer) outputBufferSize uart.inputBuffer.tail
      (ringBufferSize uart.inputBuffer) := by
  rw [UartConnection.pending, RingBuffer.contents, uart.buffer_eq, uart.max_eq]

@[simp] theorem length_pending (uart : UartConnection) :
    uart.pending.length = ringBufferSize uart.inputBuffer :=
  uart.inputBuffer.length_contents uart.mem

theorem uartHasMore_iff (uart : UartConnection) :
    uartHasMore uart = true ↔ uart.pending ≠ [] := by
  calc
    uartHasMore uart = true ↔ ¬ ringBufferIsEmpty uart.inputBuffer = true := by
      simp [uartHasMore]
    _ ↔ ¬ uart.pending.length = 0 := by
      rw [length_pending, ringBufferSize_eq_zero_iff]
    _ ↔ uart.pending ≠ [] := not_congr List.length_eq_zero_iff

theorem uartReadByte_spec (uart : UartConnection) :
    (uartReadByte uart).1 = uart.pending.headD 0 ∧
      (uartReadByte uart).2.pending = uart.pending.tail :=
  ringBufferPop_contents uart.mem uart.inputBuffer

/-- The reader's chunk arrives in `uart_input` and leaves the ring alone. -/
theorem uartServerRead_spec (uart : UartConnection) (chunk : List UInt8) :
    (uartServerRead uart chunk).pending = uart.pending ∧
      (List.range chunk.length).map ((uartServerRead uart chunk).mem .uartInput) = chunk := by
  constructor
  · rw [pending_eq, pending_eq]
    simp [uartServerRead]
  · apply List.ext_getElem
    · simp
    · intro j hj hj'
      simp [uartServerRead, List.getD_eq_getElem?_getD, hj']

/-- An append keeps the last bytes of what was pending and what arrived. -/
theorem uartServerAppend_pending (uart : UartConnection) (bytesRead : Nat) :
    (uartServerAppend uart bytesRead).pending =
      keepLast outputBufferSize
        (uart.pending ++ (List.range bytesRead).map (uart.mem .uartInput)) := by
  rw [← uart.max_eq]
  exact ringBufferCopyFrom_contents uart.mem uart.inputBuffer (uartInput_ne_buffer uart) bytesRead

/-- Sending does not move the ring. -/
theorem uartRouteTo_inputBuffer (codec : MavlinkCodec) (uart : UartConnection)
    (msg : MavlinkMessage) :
    (uartRouteTo codec uart msg).1.inputBuffer = uart.inputBuffer := rfl

/-- Sending changes no byte of the input array outside the frame. -/
theorem uartEncode_cell (codec : MavlinkCodec) (uart : UartConnection) (msg : MavlinkMessage)
    (j : Nat) :
    (uartEncode codec uart msg).1.mem .outputBuffer j =
      (codec.msgToSendBuffer msg).getD j (uart.mem .outputBuffer j) := by
  simp [uartEncode]

/-- The bytes that `n` rounds of `has_more` and `read_byte` return. -/
def laterReads : Nat → UartConnection → List UInt8
  | 0, _ => []
  | n + 1, uart =>
      if uartHasMore uart then (uartReadByte uart).1 :: laterReads n (uartReadByte uart).2
      else []

/-- What will be read is what is pending. -/
theorem laterReads_eq (n : Nat) (uart : UartConnection) :
    laterReads n uart = uart.pending.take n := by
  induction n generalizing uart with
  | zero => rfl
  | succ n ih =>
      obtain ⟨hbyte, hrest⟩ := uartReadByte_spec uart
      cases hpending : uart.pending with
      | nil =>
          have hno : uartHasMore uart = false := by
            rw [← Bool.not_eq_true, uartHasMore_iff, hpending]
            simp
          simp [laterReads, hno]
      | cons b rest =>
          have hyes : uartHasMore uart = true := by
            rw [uartHasMore_iff, hpending]
            simp
          rw [hpending] at hbyte hrest
          simp [laterReads, hyes, ih, hbyte, hrest]

/-- Sending a message changes nothing about what will be read. -/
def Undisturbed (codec : MavlinkCodec) (uart : UartConnection) (msg : MavlinkMessage) : Prop :=
  ∀ n, laterReads n (uartRouteTo codec uart msg).1 = laterReads n uart

/-- Every unread cell the frame would be written over holds the frame's byte already. -/
def FrameClear (codec : MavlinkCodec) (uart : UartConnection) (msg : MavlinkMessage) : Prop :=
  ∀ i < ringBufferSize uart.inputBuffer,
    let j := (uart.inputBuffer.tail + i) % outputBufferSize
    j < (codec.msgToSendBuffer msg).length →
      (codec.msgToSendBuffer msg).getD j 0 = uart.mem .outputBuffer j

theorem pending_uartRouteTo_iff (codec : MavlinkCodec) (uart : UartConnection)
    (msg : MavlinkMessage) :
    (uartRouteTo codec uart msg).1.pending = uart.pending ↔ FrameClear codec uart msg := by
  rw [pending_eq, pending_eq, uartRouteTo_inputBuffer, window_eq_iff]
  refine forall_congr' fun i => forall_congr' fun _ => ?_
  have hcell := uartEncode_cell codec uart msg
    ((uart.inputBuffer.tail + i) % outputBufferSize)
  simp only [uartRouteTo, hcell]
  by_cases hj : (uart.inputBuffer.tail + i) % outputBufferSize <
      (codec.msgToSendBuffer msg).length
  · simp [hj, List.getD_eq_getElem?_getD]
  · simp [hj, List.getD_eq_getElem?_getD]

/-- A message disturbs the input unless it is clear of the unread bytes. -/
theorem undisturbed_iff (codec : MavlinkCodec) (uart : UartConnection) (msg : MavlinkMessage) :
    Undisturbed codec uart msg ↔ FrameClear codec uart msg := by
  rw [← pending_uartRouteTo_iff]
  simp only [Undisturbed, laterReads_eq]
  constructor
  · intro h
    have hlen : (uartRouteTo codec uart msg).1.pending.length = uart.pending.length := by
      rw [length_pending, length_pending, uartRouteTo_inputBuffer]
    have htake := h uart.pending.length
    rwa [List.take_length, ← hlen, List.take_length] at htake
  · intro h n
    rw [h]

/-! ### Runs -/

/-- An operation on the connection, each taken as one step. -/
inductive UartOp
  | receive (chunk : List UInt8)
  | readByte
  | routeTo (msg : MavlinkMessage)

/-- Whether an operation sends. -/
def UartOp.sends : UartOp → Bool
  | routeTo _ => true
  | _ => false

/-- A connection and the bytes `uart_read_byte` has returned. -/
structure UartRun where
  uart : UartConnection
  returned : List UInt8

def uartStep (codec : MavlinkCodec) (s : UartRun) : UartOp → Option UartRun
  | .receive chunk =>
      some { s with uart := uartServerAppend (uartServerRead s.uart chunk) chunk.length }
  | .readByte =>
      some { uart := (uartReadByte s.uart).2
             returned := s.returned ++ [(uartReadByte s.uart).1] }
  | .routeTo msg => some { s with uart := (uartRouteTo codec s.uart msg).1 }

/-- A connection that has just been initialized. -/
def UartRun.start (mem : Memory UartArray) : UartRun where
  uart := uartStateInit mem
  returned := []

/-- Whenever the run sends, it sends clear of the unread bytes. -/
def SendsClear (codec : MavlinkCodec) (s : UartRun) : UartOp → Prop
  | .routeTo msg => FrameClear codec s.uart msg
  | _ => True

/-- Two runs whose readers cannot tell them apart. -/
structure SameInput (s t : UartRun) : Prop where
  inputBuffer : s.uart.inputBuffer = t.uart.inputBuffer
  pending : s.uart.pending = t.uart.pending
  returned : s.returned = t.returned

/-- Operations that do not send keep two runs alike. -/
theorem SameInput.step {codec : MavlinkCodec} {s t s' : UartRun} (h : SameInput s t)
    {op : UartOp} (hop : op.sends = false) (hstep : uartStep codec s op = some s') :
    ∃ t', uartStep codec t op = some t' ∧ SameInput s' t' := by
  cases op with
  | receive chunk =>
      cases hstep
      refine ⟨_, rfl, ?_, ?_, h.returned⟩
      · show (ringBufferCopyFrom _ s.uart.inputBuffer _ _).2 =
          (ringBufferCopyFrom _ t.uart.inputBuffer _ _).2
        rw [h.inputBuffer]
        exact ringBufferCopyFrom_ring _ _ _ _ _
      · obtain ⟨hs, hschunk⟩ := uartServerRead_spec s.uart chunk
        obtain ⟨ht, htchunk⟩ := uartServerRead_spec t.uart chunk
        simp only [uartServerAppend_pending, hs, hschunk, ht, htchunk, h.pending]
  | readByte =>
      cases hstep
      obtain ⟨hs, hsrest⟩ := uartReadByte_spec s.uart
      obtain ⟨ht, htrest⟩ := uartReadByte_spec t.uart
      refine ⟨_, rfl, ?_, ?_, ?_⟩
      · show (ringBufferPop s.uart.mem s.uart.inputBuffer).2 =
          (ringBufferPop t.uart.mem t.uart.inputBuffer).2
        rw [h.inputBuffer]
        exact ringBufferPop_ring _ _ _
      · simp only [hsrest, htrest, h.pending]
      · simp only [hs, ht, h.pending, h.returned]
  | routeTo msg => cases hop

/-- When every send is clear of the unread bytes, the run without its sends reads the same. -/
theorem SameInput.run {codec : MavlinkCodec} {ops : List UartOp} {s t s' : UartRun}
    (h : SameInput s t) (hclear : Along (uartStep codec) (SendsClear codec) s ops)
    (hrun : run (uartStep codec) s ops = some s') :
    ∃ t', run (uartStep codec) t (ops.filter fun op => !op.sends) = some t' ∧
      SameInput s' t' := by
  induction ops generalizing s t with
  | nil =>
      cases hrun
      exact ⟨t, rfl, h⟩
  | cons op ops ih =>
      obtain ⟨s₁, hstep, hrest⟩ := (run_cons_eq_some_iff _).mp hrun
      have hclear' := hclear.2 s₁ hstep
      cases hop : op.sends with
      | false =>
          obtain ⟨t₁, hstep', h'⟩ := h.step hop hstep
          obtain ⟨t', hrun', hsame⟩ := ih h' hclear' hrest
          refine ⟨t', ?_, hsame⟩
          rw [List.filter_cons_of_pos (by simp [hop])]
          exact (run_cons_eq_some_iff _).mpr ⟨t₁, hstep', hrun'⟩
      | true =>
          cases op with
          | receive chunk => cases hop
          | readByte => cases hop
          | routeTo msg =>
              cases hstep
              have hpending := (pending_uartRouteTo_iff codec s.uart msg).mpr hclear.1
              have hsent : SameInput { s with uart := (uartRouteTo codec s.uart msg).1 } t :=
                ⟨h.inputBuffer, hpending.trans h.pending, h.returned⟩
              obtain ⟨t', hrun', hsame⟩ := ih hsent hclear' hrest
              refine ⟨t', ?_, hsame⟩
              rw [List.filter_cons_of_neg (by simp [hop])]
              exact hrun'

/-- In every state of a connection a message leaves the unread input alone exactly when
it is clear of it, and a run that only sends clear messages reads what it would read
without them. -/
theorem uartRouteTo_undisturbed (codec : MavlinkCodec) (mem : Memory UartArray)
    {ops : List UartOp} {s : UartRun} (hrun : run (uartStep codec) (.start mem) ops = some s) :
    (∀ msg, Undisturbed codec s.uart msg ↔ FrameClear codec s.uart msg) ∧
    (Along (uartStep codec) (SendsClear codec) (.start mem) ops →
      ∃ t, run (uartStep codec) (.start mem) (ops.filter fun op => !op.sends) = some t ∧
        s.returned = t.returned ∧ ∀ n, laterReads n s.uart = laterReads n t.uart) := by
  refine ⟨undisturbed_iff codec s.uart, ?_⟩
  intro hclear
  have hsame : SameInput (UartRun.start mem) (UartRun.start mem) := ⟨rfl, rfl, rfl⟩
  obtain ⟨t, hrun', h⟩ := hsame.run hclear hrun
  refine ⟨t, hrun', h.returned, fun n => ?_⟩
  rw [laterReads_eq, laterReads_eq, h.pending]

/-- A short telemetry command. -/
def shortFrame : MavlinkMessage := frameOfPayload [5]

/-- With nothing unread, sending is clear, and what arrives afterwards is read. -/
theorem uartRouteTo_undisturbed_idle :
    ∃ s t, run (uartStep wireCodec) (.start fun _ _ => 0)
        [.routeTo shortFrame, .receive [0x41], .readByte] = some s ∧
      run (uartStep wireCodec) (.start fun _ _ => 0) [.receive [0x41], .readByte] = some t ∧
      s.returned = t.returned := by
  obtain ⟨s, hs⟩ : ∃ s, run (uartStep wireCodec) (.start fun _ _ => 0)
      [.routeTo shortFrame, .receive [0x41], .readByte] = some s := ⟨_, rfl⟩
  have hclear : FrameClear wireCodec (uartStateInit fun _ _ => 0) shortFrame := by
    intro i hi
    exact absurd hi (Nat.not_lt_zero i)
  obtain ⟨t, ht, hreturned, -⟩ := (uartRouteTo_undisturbed wireCodec _ hs).2
    ⟨hclear, fun _ _ => ⟨trivial, fun _ _ => ⟨trivial, fun _ _ => trivial⟩⟩⟩
  exact ⟨s, t, hs, ht, hreturned⟩

/-- An unread byte is replaced by the start byte of the frame that is sent. -/
theorem uartRouteTo_disturbs :
    ∃ s, run (uartStep wireCodec) (.start fun _ _ => 0) [.receive [0x41]] = some s ∧
      laterReads 1 s.uart = [0x41] ∧
      laterReads 1 (uartRouteTo wireCodec s.uart shortFrame).1 = [0xFD] ∧
      ¬ Undisturbed wireCodec s.uart shortFrame := by
  obtain ⟨s, hs⟩ : ∃ s, run (uartStep wireCodec) (.start fun _ _ => 0) [.receive [0x41]] =
    some s := ⟨_, rfl⟩
  cases hs
  have hbefore : laterReads 1 (uartServerAppend (uartServerRead
      (uartStateInit fun _ _ => 0) [0x41]) 1) = [0x41] := by
    decide +kernel
  have hafter : laterReads 1 (uartRouteTo wireCodec (uartServerAppend (uartServerRead
      (uartStateInit fun _ _ => 0) [0x41]) 1) shortFrame).1 = [0xFD] := by
    decide +kernel
  refine ⟨_, rfl, hbefore, hafter, ?_⟩
  intro h
  have hsame := h 1
  exact absurd (hafter.symm.trans (hsame.trans hbefore)) (by decide)

end SecureGateway
