import SecureGateway.Uart

/-!
# The UART threads

The reader thread of `uart_server` and the pipeline thread share a connection. The
reader appends each chunk to the ring and then waits while the ring is full; the
pipeline polls, reads and sends.

## Implementation notes

A section under the lock is one step. `uart_route_to` takes no lock, so its encoding
and its write are two steps. The ghost fields note what the device delivered, what
`read_byte` returned, what `write` was handed, and the stores of the reader into the
shared array since the last encoding.
-/

namespace SecureGateway

open Library

/-- Where `uart_server` stands. -/
inductive ReaderPc
  | reading
  | holding (bytesRead : Nat)
  | waiting

/-- Where the pipeline stands with this connection. -/
inductive PipelinePc
  | idle
  | readable
  | encoded (msg : MavlinkMessage) (len : Nat)

structure UartThreads where
  uart : UartConnection
  reader : ReaderPc
  pipeline : PipelinePc
  received : List UInt8
  returned : List UInt8
  written : List (MavlinkMessage × List UInt8)
  since : List (Nat × UInt8)

/-- Both threads before their first step. -/
def UartThreads.start (mem : Memory UartArray) : UartThreads where
  uart := uartStateInit mem
  reader := .reading
  pipeline := .idle
  received := []
  returned := []
  written := []
  since := []

/-- The steps of the reader (`read`, `append`, `wake`) and of the pipeline. -/
inductive UartLabel
  | read (chunk : List UInt8)
  | append
  | wake
  | hasMore
  | readByte
  | encode (msg : MavlinkMessage)
  | write

/-- Whether the step belongs to `uart_route_to`. -/
def UartLabel.routes : UartLabel → Bool
  | encode _ | write => true
  | _ => false

/-- The reader goes on, or waits while the ring is full. -/
def afterLock (uart : UartConnection) : ReaderPc :=
  if ringBufferIsFull uart.inputBuffer then .waiting else .reading

def uartThreadsStep (codec : MavlinkCodec) (s : UartThreads) : UartLabel → Option UartThreads
  | .read chunk =>
      match s.reader with
      | .reading =>
          if 0 < chunk.length ∧ chunk.length ≤ uartInputSize then
            some { s with
              uart := uartServerRead s.uart chunk
              reader := .holding chunk.length
              received := s.received ++ chunk }
          else none
      | _ => none
  | .append =>
      match s.reader with
      | .holding bytesRead =>
          let uart := uartServerAppend s.uart bytesRead
          some { s with
            uart := uart
            reader := afterLock uart
            since := s.since ++ copyStores s.uart.mem s.uart.inputBuffer .uartInput bytesRead }
      | _ => none
  | .wake =>
      match s.reader with
      | .waiting => some { s with reader := afterLock s.uart }
      | _ => none
  | .hasMore =>
      match s.pipeline with
      | .encoded _ _ => none
      | _ => some { s with pipeline := if uartHasMore s.uart then .readable else .idle }
  | .readByte =>
      match s.pipeline with
      | .readable =>
          some { s with
            uart := (uartReadByte s.uart).2
            pipeline := .idle
            returned := s.returned ++ [(uartReadByte s.uart).1] }
      | _ => none
  | .encode msg =>
      match s.pipeline with
      | .idle =>
          let (uart, len) := uartEncode codec s.uart msg
          some { s with uart := uart, pipeline := .encoded msg len, since := [] }
      | _ => none
  | .write =>
      match s.pipeline with
      | .encoded msg len =>
          some { s with
            pipeline := .idle
            written := s.written ++ [(msg, uartWrite s.uart len)] }
      | _ => none

/-- Every step the threads can take. -/
theorem uartThreadsStep_cases {codec : MavlinkCodec} {s t : UartThreads} {l : UartLabel}
    (h : uartThreadsStep codec s l = some t) :
    (∃ chunk, l = .read chunk ∧ s.reader = .reading ∧ 0 < chunk.length ∧
      t = { s with
        uart := uartServerRead s.uart chunk
        reader := .holding chunk.length
        received := s.received ++ chunk }) ∨
    (∃ n, l = .append ∧ s.reader = .holding n ∧
      t = { s with
        uart := uartServerAppend s.uart n
        reader := afterLock (uartServerAppend s.uart n)
        since := s.since ++ copyStores s.uart.mem s.uart.inputBuffer .uartInput n }) ∨
    (l = .wake ∧ s.reader = .waiting ∧ t = { s with reader := afterLock s.uart }) ∨
    (l = .hasMore ∧
      t = { s with pipeline := if uartHasMore s.uart then .readable else .idle }) ∨
    (l = .readByte ∧ s.pipeline = .readable ∧
      t = { s with
        uart := (uartReadByte s.uart).2
        pipeline := .idle
        returned := s.returned ++ [(uartReadByte s.uart).1] }) ∨
    (∃ msg, l = .encode msg ∧ s.pipeline = .idle ∧
      t = { s with
        uart := (uartEncode codec s.uart msg).1
        pipeline := .encoded msg (uartEncode codec s.uart msg).2
        since := [] }) ∨
    (∃ msg len, l = .write ∧ s.pipeline = .encoded msg len ∧
      t = { s with
        pipeline := .idle
        written := s.written ++ [(msg, uartWrite s.uart len)] }) := by
  cases l with
  | read chunk =>
      simp only [uartThreadsStep] at h
      split at h
      · rename_i hreader
        split at h
        · rename_i hlen
          cases h
          exact Or.inl ⟨chunk, rfl, hreader, hlen.1, rfl⟩
        · cases h
      · cases h
  | append =>
      simp only [uartThreadsStep] at h
      split at h
      · rename_i n hreader
        cases h
        exact Or.inr (Or.inl ⟨n, rfl, hreader, rfl⟩)
      · cases h
  | wake =>
      simp only [uartThreadsStep] at h
      split at h
      · rename_i hreader
        cases h
        exact Or.inr (Or.inr (Or.inl ⟨rfl, hreader, rfl⟩))
      · cases h
  | hasMore =>
      simp only [uartThreadsStep] at h
      split at h
      · cases h
      · cases h
        exact Or.inr (Or.inr (Or.inr (Or.inl ⟨rfl, rfl⟩)))
  | readByte =>
      simp only [uartThreadsStep] at h
      split at h
      · rename_i hpipeline
        cases h
        exact Or.inr (Or.inr (Or.inr (Or.inr (Or.inl ⟨rfl, hpipeline, rfl⟩))))
      · cases h
  | encode msg =>
      simp only [uartThreadsStep] at h
      split at h
      · rename_i hpipeline
        cases h
        exact Or.inr (Or.inr (Or.inr (Or.inr (Or.inr (Or.inl ⟨msg, rfl, hpipeline, rfl⟩)))))
      · cases h
  | write =>
      simp only [uartThreadsStep] at h
      split at h
      · rename_i msg len hpipeline
        cases h
        exact Or.inr (Or.inr (Or.inr (Or.inr (Or.inr (Or.inr ⟨msg, len, rfl, hpipeline, rfl⟩)))))
      · cases h

/-! ### What is written -/

/-- What the device is handed is the encoding of the message. -/
def WrittenExact (codec : MavlinkCodec) (s : UartThreads) : Prop :=
  ∀ w ∈ s.written, w.2 = codec.msgToSendBuffer w.1

/-- A write at which the reader's stores since the encoding, if any, have left the
cells of the frame as they were encoded. -/
def FrameKept (codec : MavlinkCodec) (s : UartThreads) (l : UartLabel) : Prop :=
  l = .write → ∀ msg len, s.pipeline = .encoded msg len →
    ∀ j < (codec.msgToSendBuffer msg).length, ∀ b, lastStore s.since j = some b →
      b = (codec.msgToSendBuffer msg).getD j 0

/-- Between encoding and write the array holds the frame under the reader's stores. -/
def FrameUnderStores (codec : MavlinkCodec) (s : UartThreads) : Prop :=
  ∀ msg len, s.pipeline = .encoded msg len → len = (codec.msgToSendBuffer msg).length ∧
    ∃ cells, s.uart.mem .outputBuffer = applyStores cells s.since ∧
      ∀ j < len, cells j = (codec.msgToSendBuffer msg).getD j 0

theorem uartServerAppend_cells (uart : UartConnection) (n : Nat) :
    (uartServerAppend uart n).mem .outputBuffer = applyStores (uart.mem .outputBuffer)
      (copyStores uart.mem uart.inputBuffer .uartInput n) := by
  obtain ⟨-, -, -, -, hcells⟩ :=
    ringBufferCopyFrom_spec uart.mem uart.inputBuffer (uartInput_ne_buffer uart) n
  rw [uart.buffer_eq] at hcells
  exact hcells

theorem FrameUnderStores.step {codec : MavlinkCodec} {s t : UartThreads} {l : UartLabel}
    (hs : FrameUnderStores codec s) (h : uartThreadsStep codec s l = some t) :
    FrameUnderStores codec t := by
  intro msg len hpc
  rcases uartThreadsStep_cases h with ⟨chunk, rfl, -, -, rfl⟩ | ⟨n, rfl, -, rfl⟩ |
    ⟨rfl, -, rfl⟩ | ⟨rfl, rfl⟩ | ⟨rfl, -, rfl⟩ | ⟨msg', rfl, -, rfl⟩ | ⟨msg', len', rfl, -, rfl⟩
  · obtain ⟨hlen, cells, hcells, hframe⟩ := hs msg len hpc
    refine ⟨hlen, cells, ?_, hframe⟩
    simpa [uartServerRead] using hcells
  · obtain ⟨hlen, cells, hcells, hframe⟩ := hs msg len hpc
    refine ⟨hlen, cells, ?_, hframe⟩
    simp only
    rw [uartServerAppend_cells, hcells, applyStores_append]
  · exact hs msg len hpc
  · simp only at hpc
    split at hpc <;> cases hpc
  · cases hpc
  · cases hpc
    refine ⟨rfl, (uartEncode codec s.uart msg).1.mem .outputBuffer, rfl, fun j hj => ?_⟩
    have hj' : j < (codec.msgToSendBuffer msg).length := hj
    rw [uartEncode_cell]
    simp [List.getD_eq_getElem?_getD, hj']
  · cases hpc

/-- A write hands over the encoding exactly when the reader has kept the frame. -/
theorem uartWrite_eq_iff {codec : MavlinkCodec} {s : UartThreads}
    (hs : FrameUnderStores codec s) {msg : MavlinkMessage} {len : Nat}
    (hpc : s.pipeline = .encoded msg len) :
    uartWrite s.uart len = codec.msgToSendBuffer msg ↔ FrameKept codec s .write := by
  obtain ⟨rfl, cells, hcells, hframe⟩ := hs msg len hpc
  have hkept : FrameKept codec s .write ↔
      ∀ j < (codec.msgToSendBuffer msg).length, ∀ b, lastStore s.since j = some b →
        b = cells j := by
    constructor
    · intro h j hj b hb
      rw [hframe j hj]
      exact h rfl msg _ hpc j hj b hb
    · intro h _ msg' len' hpc'
      rw [hpc] at hpc'
      cases hpc'
      intro j hj b hb
      rw [← hframe j hj]
      exact h j hj b hb
  rw [hkept, ← applyStores_eq_below_iff, ← hcells]
  constructor
  · intro h j hj
    have hbyte := congrArg (fun bytes => bytes.getD j 0) h
    simp only [uartWrite, List.getD_eq_getElem?_getD, List.getElem?_map, List.getElem?_range hj,
      Option.map_some, Option.getD_some] at hbyte
    rw [hframe j hj, hbyte, List.getD_eq_getElem?_getD]
  · intro h
    apply List.ext_getElem
    · simp [uartWrite]
    · intro j hj hj'
      simp only [uartWrite, List.getElem_map, List.getElem_range]
      rw [h j hj', hframe j hj']
      simp [List.getD_eq_getElem?_getD, hj']

/-- Only a write adds to what was written. -/
theorem writtenExact_step_iff {codec : MavlinkCodec} {s t : UartThreads} {l : UartLabel}
    (hs : FrameUnderStores codec s) (h : uartThreadsStep codec s l = some t) :
    WrittenExact codec t ↔ WrittenExact codec s ∧ FrameKept codec s l := by
  have hother (hl : l ≠ .write) : FrameKept codec s l := fun heq => absurd heq hl
  rcases uartThreadsStep_cases h with ⟨chunk, rfl, -, -, rfl⟩ | ⟨n, rfl, -, rfl⟩ |
    ⟨rfl, -, rfl⟩ | ⟨rfl, rfl⟩ | ⟨rfl, -, rfl⟩ | ⟨msg, rfl, -, rfl⟩ | ⟨msg, len, rfl, hpc, rfl⟩
  · simp [WrittenExact, hother]
  · simp [WrittenExact, hother]
  · simp [WrittenExact, hother]
  · simp [WrittenExact, hother]
  · simp [WrittenExact, hother]
  · simp [WrittenExact, hother]
  · rw [← uartWrite_eq_iff hs hpc]
    simp only [WrittenExact, List.mem_append, List.mem_singleton]
    constructor
    · intro hall
      exact ⟨fun w hw => hall w (Or.inl hw), hall _ (Or.inr rfl)⟩
    · rintro ⟨hold, hnew⟩ w (hw | rfl)
      · exact hold w hw
      · exact hnew

/-- From any state of the threads on, what is written is exact exactly when at each
write the reader has kept the frame. -/
theorem writtenExact_run_iff {codec : MavlinkCodec} {labels : List UartLabel}
    {s₀ s : UartThreads} (hs₀ : FrameUnderStores codec s₀)
    (hrun : run (uartThreadsStep codec) s₀ labels = some s) :
    WrittenExact codec s ↔ WrittenExact codec s₀ ∧
      Along (uartThreadsStep codec) (FrameKept codec) s₀ labels := by
  induction labels generalizing s₀ with
  | nil =>
      cases hrun
      simp [Along]
  | cons l labels ih =>
      obtain ⟨s₁, hstep, hrest⟩ := (run_cons_eq_some_iff _).mp hrun
      rw [ih (hs₀.step hstep) hrest, writtenExact_step_iff hs₀ hstep]
      simp only [Along, hstep, Option.some.injEq, forall_eq', and_assoc]

/-- In every run, what is written is what was encoded exactly when at each write the
reader has kept the frame. -/
theorem written_exact_iff (codec : MavlinkCodec) (mem : Memory UartArray)
    {labels : List UartLabel} {s : UartThreads}
    (hrun : run (uartThreadsStep codec) (.start mem) labels = some s) :
    WrittenExact codec s ↔ Along (uartThreadsStep codec) (FrameKept codec) (.start mem) labels := by
  have hstart : FrameUnderStores codec (.start mem) := by
    intro msg len hpc
    cases hpc
  rw [writtenExact_run_iff hstart hrun]
  simp [WrittenExact, UartThreads.start]

/-- A chunk that lands past the frame between its encoding and its write. -/
def chunkPastFrame : List UartLabel :=
  [.read (List.replicate 16 0), .append, .encode shortFrame, .read [0xAA], .append, .write]

theorem written_exact_chunkPastFrame :
    ∃ s, run (uartThreadsStep wireCodec) (.start fun _ _ => 0) chunkPastFrame = some s ∧
      s.written.length = 1 ∧ WrittenExact wireCodec s := by
  obtain ⟨s, hs⟩ : ∃ s, run (uartThreadsStep wireCodec) (.start fun _ _ => 0) chunkPastFrame =
    some s := ⟨_, rfl⟩
  refine ⟨s, hs, ?_, (written_exact_iff wireCodec _ hs).mpr ?_⟩
  · cases hs
    rfl
  · have hno {s : UartThreads} {l : UartLabel} (hl : l ≠ .write) : FrameKept wireCodec s l :=
      fun heq => absurd heq hl
    refine ⟨hno (by simp), fun s₁ h₁ => ⟨hno (by simp), fun s₂ h₂ => ⟨hno (by simp),
      fun s₃ h₃ => ⟨hno (by simp), fun s₄ h₄ => ⟨hno (by simp), fun s₅ h₅ => ⟨?_,
      fun _ _ => trivial⟩⟩⟩⟩⟩⟩
    cases h₁
    cases h₂
    cases h₃
    cases h₄
    cases h₅
    intro _ msg len hpc j hj b hb
    cases hpc
    have hlen : (wireCodec.msgToSendBuffer shortFrame).length = 13 := by decide +kernel
    have hcell : j = 16 := by
      by_contra hne
      change lastStore ([] ++ [(16, 0xAA)]) j = some b at hb
      rw [lastStore_append_singleton, if_neg (Ne.symm hne)] at hb
      cases hb
    omega

/-- A byte received between encoding and write goes out in place of the start byte. -/
theorem not_written_exact_chunkInFrame :
    ∃ s, run (uartThreadsStep wireCodec) (.start fun _ _ => 0)
        [.encode shortFrame, .read [0xAA], .append, .write] = some s ∧
      s.written.map (fun w => w.2.head?) = [some 0xAA] ∧
      (wireCodec.msgToSendBuffer shortFrame).head? = some 0xFD ∧ ¬ WrittenExact wireCodec s := by
  obtain ⟨s, hs⟩ : ∃ s, run (uartThreadsStep wireCodec) (.start fun _ _ => 0)
    [.encode shortFrame, .read [0xAA], .append, .write] = some s := ⟨_, rfl⟩
  have hbytes : (run (uartThreadsStep wireCodec) (.start fun _ _ => 0)
      [.encode shortFrame, .read [0xAA], .append, .write]).map
        (fun s => s.written.map fun w => w.2.head?) = some [some 0xAA] := by
    decide +kernel
  rw [hs, Option.map_some, Option.some.injEq] at hbytes
  refine ⟨s, hs, hbytes, by decide +kernel, ?_⟩
  intro hexact
  have hmsg : s.written.map Prod.fst = [shortFrame] := by
    cases hs
    rfl
  have hheads : s.written.map (fun w => w.2.head?) =
      (s.written.map Prod.fst).map fun msg => (wireCodec.msgToSendBuffer msg).head? := by
    rw [List.map_map]
    exact List.map_congr_left fun w hw => by rw [hexact w hw]; rfl
  rw [hbytes, hmsg] at hheads
  exact absurd hheads (by decide +kernel)

end SecureGateway
