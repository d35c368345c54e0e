import SecureGateway.UartThreads

/-!
# Input under back-pressure

The reader appends a whole chunk and looks at the fill level only afterwards. Bytes
are lost exactly when a chunk does not fit in what is free at the time it is appended.
-/

namespace SecureGateway

open Library

/-- The chunk the reader has read and not yet appended. -/
def UartThreads.inHand (s : UartThreads) : List UInt8 :=
  match s.reader with
  | .holding n => (List.range n).map (s.uart.mem .uartInput)
  | _ => []

/-- Every byte the device delivered has been returned, is pending, or is in hand, in
that order. -/
def Lossless (s : UartThreads) : Prop :=
  s.returned ++ s.uart.pending ++ s.inHand = s.received

/-- A chunk is appended only when it fits beside the unread bytes. -/
def ChunkFits (s : UartThreads) (l : UartLabel) : Prop :=
  l = .append → ∀ n, s.reader = .holding n →
    ringBufferSize s.uart.inputBuffer + n ≤ outputBufferSize

/-- The pipeline reads only what is there. -/
def ReadsPending (s : UartThreads) : Prop :=
  s.pipeline = .readable → s.uart.pending ≠ []

theorem inHand_afterLock (s : UartThreads) (uart : UartConnection) (since : List (Nat × UInt8)) :
    { s with uart := uart, reader := afterLock uart, since := since }.inHand = [] := by
  simp only [UartThreads.inHand, afterLock]
  split
  · rename_i h
    split at h <;> cases h
  · rfl

theorem uartServerAppend_pending_holding {s : UartThreads} {n : Nat}
    (h : s.reader = .holding n) :
    (uartServerAppend s.uart n).pending =
      keepLast outputBufferSize (s.uart.pending ++ s.inHand) := by
  rw [uartServerAppend_pending, UartThreads.inHand, h]

/-- What is appended stays behind what was pending. -/
theorem ReadsPending.step {codec : MavlinkCodec} {s t : UartThreads} {l : UartLabel}
    (hs : ReadsPending s) (hl : l.routes = false) (h : uartThreadsStep codec s l = some t) :
    ReadsPending t := by
  intro hpc
  rcases uartThreadsStep_cases h with ⟨chunk, rfl, -, -, rfl⟩ | ⟨n, rfl, -, rfl⟩ |
    ⟨rfl, -, rfl⟩ | ⟨rfl, rfl⟩ | ⟨rfl, -, rfl⟩ | ⟨msg, rfl, -, rfl⟩ | ⟨msg, len, rfl, -, rfl⟩
  · rw [(uartServerRead_spec s.uart chunk).1]
    exact hs hpc
  · have hpos := List.length_pos_iff.mpr (hs hpc)
    have hcap : 0 < outputBufferSize := by decide
    apply List.length_pos_iff.mp
    simp only
    rw [uartServerAppend_pending, length_keepLast, List.length_append]
    omega
  · exact hs hpc
  · simp only at hpc
    split at hpc
    · rename_i hmore
      exact (uartHasMore_iff s.uart).mp hmore
    · cases hpc
  · cases hpc
  · cases hl
  · cases hl

/-- Of the steps that do not send, only appending a chunk that does not fit loses input. -/
theorem lossless_step_iff {codec : MavlinkCodec} {s t : UartThreads} {l : UartLabel}
    (hs : Lossless s) (hreads : ReadsPending s) (hl : l.routes = false)
    (h : uartThreadsStep codec s l = some t) : Lossless t ↔ ChunkFits s l := by
  have hother (hne : l ≠ .append) : ChunkFits s l := fun heq => absurd heq hne
  rcases uartThreadsStep_cases h with ⟨chunk, rfl, hreader, -, rfl⟩ | ⟨n, rfl, hreader, rfl⟩ |
    ⟨rfl, hreader, rfl⟩ | ⟨rfl, rfl⟩ | ⟨rfl, hpc, rfl⟩ | ⟨msg, rfl, -, rfl⟩ |
    ⟨msg, len, rfl, -, rfl⟩
  · refine iff_of_true ?_ (hother (by simp))
    obtain ⟨hpending, hchunk⟩ := uartServerRead_spec s.uart chunk
    simp only [Lossless, UartThreads.inHand, hreader, List.append_nil] at hs
    simp only [Lossless, UartThreads.inHand, hpending, hchunk, hs]
  · have hfits : ChunkFits s .append ↔
        s.uart.pending.length + s.inHand.length ≤ outputBufferSize := by
      simp [ChunkFits, hreader, UartThreads.inHand]
    rw [hfits, ← keepLast_append_eq_iff, ← uartServerAppend_pending_holding hreader]
    simp only [Lossless] at hs ⊢
    rw [inHand_afterLock, List.append_nil, ← hs, List.append_assoc, List.append_cancel_left_eq]
  · refine iff_of_true ?_ (hother (by simp))
    have hhand : s.inHand = [] := by simp only [UartThreads.inHand, hreader]
    rw [Lossless, hhand] at hs
    rw [Lossless, inHand_afterLock s s.uart s.since]
    exact hs
  · exact iff_of_true hs (hother (by simp))
  · refine iff_of_true ?_ (hother (by simp))
    obtain ⟨hbyte, hrest⟩ := uartReadByte_spec s.uart
    obtain ⟨b, rest, hpending⟩ := List.exists_cons_of_ne_nil (hreads hpc)
    have hhand : { s with
        uart := (uartReadByte s.uart).2
        pipeline := .idle
        returned := s.returned ++ [(uartReadByte s.uart).1] }.inHand = s.inHand := rfl
    rw [hpending] at hbyte hrest
    rw [Lossless, hpending] at hs
    rw [Lossless, hhand, hrest, hbyte, ← hs]
    simp
  · cases hl
  · cases hl

theorem lossless_start (mem : Memory UartArray) : Lossless (.start mem) := rfl

theorem readsPending_start (mem : Memory UartArray) : ReadsPending (.start mem) := by
  intro h
  cases h

/-- Without sends, no input is lost anywhere in a run exactly when every chunk fits at
the time it is appended, and then what was returned is a prefix of what arrived. -/
theorem uart_lossless_iff (codec : MavlinkCodec) (mem : Memory UartArray)
    {labels : List UartLabel} (hquiet : ∀ l ∈ labels, l.routes = false) {s : UartThreads}
    (hrun : run (uartThreadsStep codec) (.start mem) labels = some s) :
    (Along (uartThreadsStep codec)
        (fun s l => ∀ t, uartThreadsStep codec s l = some t → Lossless t) (.start mem) labels ↔
      Along (uartThreadsStep codec) ChunkFits (.start mem) labels) ∧
    (Along (uartThreadsStep codec) ChunkFits (.start mem) labels →
      s.returned <+: s.received) := by
  let Inv := fun s : UartThreads => Lossless s ∧ ReadsPending s
  have hstart : Inv (.start mem) := ⟨lossless_start mem, readsPending_start mem⟩
  constructor
  · refine along_iff _ Inv ?_ ?_ hstart
    · rintro s l hl ⟨hs, hreads⟩
      cases hstep : uartThreadsStep codec s l with
      | none =>
          refine iff_of_true (fun t ht => by cases ht) ?_
          rintro rfl n hreader
          simp [uartThreadsStep, hreader] at hstep
      | some t =>
          rw [← lossless_step_iff hs hreads (hquiet l hl) hstep]
          simp
    · rintro s l hl t ⟨-, hreads⟩ hkeeps hstep
      exact ⟨hkeeps t hstep, hreads.step (hquiet l hl) hstep⟩
  · intro hfits
    have hfinal : Inv s := by
      refine run_invariant_along _ Inv ?_ hstart hfits hrun
      rintro s l hl t ⟨hs, hreads⟩ hfit hstep
      exact ⟨(lossless_step_iff hs hreads (hquiet l hl) hstep).mpr hfit,
        hreads.step (hquiet l hl) hstep⟩
    rw [← hfinal.1, List.append_assoc]
    exact List.prefix_append _ _

/-- The reader delivers one chunk and, if the ring is not full then, goes on. -/
theorem exists_receive (codec : MavlinkCodec) {s : UartThreads} (hreader : s.reader = .reading)
    (chunk : List UInt8) (hpos : 0 < chunk.length) (hle : chunk.length ≤ uartInputSize) :
    ∃ t, run (uartThreadsStep codec) s [.read chunk, .append] = some t ∧
      t.uart.pending = keepLast outputBufferSize (s.uart.pending ++ chunk) ∧
      t.received = s.received ++ chunk ∧ t.returned = s.returned ∧ t.pipeline = s.pipeline ∧
      (t.uart.pending.length < outputBufferSize → t.reader = .reading) := by
  obtain ⟨hpending, hchunk⟩ := uartServerRead_spec s.uart chunk
  have hread : uartThreadsStep codec s (.read chunk) = some { s with
      uart := uartServerRead s.uart chunk
      reader := .holding chunk.length
      received := s.received ++ chunk } := by
    simp [uartThreadsStep, hreader, hpos, hle]
  refine ⟨_, (run_cons_eq_some_iff _).mpr ⟨_, hread, (run_cons_eq_some_iff _).mpr ⟨_, rfl, rfl⟩⟩,
    ?_, rfl, rfl, rfl, ?_⟩
  · simp only
    rw [uartServerAppend_pending, hpending, hchunk]
  · intro hroom
    rw [length_pending] at hroom
    have hnotfull : ringBufferIsFull
        (uartServerAppend (uartServerRead s.uart chunk) chunk.length).inputBuffer = false := by
      rw [← Bool.not_eq_true, ringBufferIsFull, ← ringBufferSize_eq_max_iff,
        UartConnection.max_eq]
      exact Nat.ne_of_lt hroom
    simp [afterLock, hnotfull]

/-- The chunk the ring is filled with. -/
def fillChunk : List UInt8 := 1 :: List.replicate 255 0

theorem length_fillChunk : fillChunk.length = 256 := by
  rw [fillChunk, List.length_cons, List.length_replicate]

/-- The ring after `n` of these chunks. -/
def filled (n : Nat) : List UInt8 := (List.replicate n fillChunk).flatten

theorem filled_succ (n : Nat) : filled (n + 1) = filled n ++ fillChunk := by
  rw [filled, filled, List.replicate_succ', List.flatten_append, List.flatten_singleton]

theorem length_filled (n : Nat) : (filled n).length = 256 * n := by
  induction n with
  | zero => rfl
  | succ n ih => rw [filled_succ, List.length_append, ih, length_fillChunk, Nat.mul_succ]

/-- Fifteen full chunks fit an empty ring. -/
theorem exists_fill (codec : MavlinkCodec) (mem : Memory UartArray) {n : Nat} (hn : n ≤ 15) :
    ∃ t, run (uartThreadsStep codec) (.start mem)
        (List.replicate n [.read fillChunk, .append]).flatten = some t ∧
      t.uart.pending = filled n ∧ t.received = filled n ∧ t.returned = [] ∧
      t.pipeline = .idle ∧ t.reader = .reading := by
  induction n with
  | zero => exact ⟨_, rfl, rfl, rfl, rfl, rfl, rfl⟩
  | succ n ih =>
      obtain ⟨s, hrun, hpending, hreceived, hreturned, hpipeline, hreader⟩ := ih (by omega)
      obtain ⟨t, hrun', hpending', hreceived', hreturned', hpipeline', hreader'⟩ :=
        exists_receive codec hreader fillChunk (by rw [length_fillChunk]; decide)
          (by rw [length_fillChunk]; decide)
      rw [hpending, ← filled_succ] at hpending'
      have hlen : (filled (n + 1)).length < outputBufferSize := by
        rw [length_filled]
        simp only [outputBufferSize]
        omega
      rw [keepLast_of_length_le (Nat.le_of_lt hlen)] at hpending'
      rw [hpending'] at hreader'
      refine ⟨t, ?_, hpending', ?_, hreturned'.trans hreturned, hpipeline'.trans hpipeline,
        hreader' hlen⟩
      · rw [List.replicate_succ', List.flatten_append, List.flatten_singleton]
        exact (run_append_eq_some_iff _).mpr ⟨s, hrun, hrun'⟩
      · rw [hreceived', hreceived, filled_succ]

/-- A chunk that fits is appended, and the first of its bytes is returned. -/
theorem uart_lossless_short :
    ∃ s, run (uartThreadsStep wireCodec) (.start fun _ _ => 0)
        [.read [1, 2], .append, .hasMore, .readByte] = some s ∧
      s.returned.length = 1 ∧ s.returned <+: s.received := by
  obtain ⟨s, hs⟩ : ∃ s, run (uartThreadsStep wireCodec) (.start fun _ _ => 0)
    [.read [1, 2], .append, .hasMore, .readByte] = some s := ⟨_, rfl⟩
  refine ⟨s, hs, ?_, (uart_lossless_iff wireCodec _ (by decide) hs).2 ?_⟩
  · cases hs
    rfl
  · have hother {s : UartThreads} {l : UartLabel} (hl : l ≠ .append) : ChunkFits s l :=
      fun heq => absurd heq hl
    refine ⟨hother (by simp), fun s₁ h₁ => ⟨?_, fun _ _ => ⟨hother (by simp), fun _ _ =>
      ⟨hother (by simp), fun _ _ => trivial⟩⟩⟩⟩
    cases h₁
    intro _ n hreader
    cases hreader
    decide

/-- A ring filled to its last free cell and then handed two bytes. -/
def overflow : List UartLabel :=
  (List.replicate 15 [.read fillChunk, .append]).flatten ++
    ([.read (List.replicate 255 0), .append] ++ ([.read [7, 8], .append] ++ [.hasMore, .readByte]))

/-- The first byte that arrived is written over before it is read. -/
theorem not_uart_lossless_overflow :
    (∀ l ∈ overflow, l.routes = false) ∧
    ∃ s, run (uartThreadsStep wireCodec) (.start fun _ _ => 0) overflow = some s ∧
      s.received.head? = some 1 ∧ s.returned = [0] ∧ ¬ s.returned <+: s.received := by
  refine ⟨by decide +kernel, ?_⟩
  obtain ⟨s₁, hrun₁, hpending₁, hreceived₁, hreturned₁, hpipeline₁, hreader₁⟩ :=
    exists_fill wireCodec (fun _ _ => 0) (n := 15) (by decide)
  obtain ⟨s₂, hrun₂, hpending₂, hreceived₂, hreturned₂, hpipeline₂, hreader₂⟩ :=
    exists_receive wireCodec hreader₁ (List.replicate 255 0)
      (by rw [List.length_replicate]; decide) (by rw [List.length_replicate]; decide)
  have hlen₂ : (filled 15 ++ List.replicate 255 0).length = 4095 := by
    rw [List.length_append, length_filled, List.length_replicate]
  rw [hpending₁, keepLast_of_length_le (by rw [hlen₂]; decide)] at hpending₂
  obtain ⟨s₃, hrun₃, hpending₃, hreceived₃, hreturned₃, hpipeline₃, -⟩ :=
    exists_receive wireCodec (hreader₂ (by rw [hpending₂, hlen₂]; decide)) [7, 8]
      (by decide) (by decide)
  -- the append has dropped the oldest byte
  have hpending : s₃.uart.pending =
      (filled 15 ++ List.replicate 255 0 ++ [7, 8]).drop 1 := by
    rw [hpending₃, hpending₂, keepLast, List.length_append, hlen₂]
    rfl
  have hbyte : (uartReadByte s₃.uart).1 = 0 := by
    rw [(uartReadByte_spec s₃.uart).1, hpending]
    rfl
  have hmore : uartHasMore s₃.uart = true := by
    rw [uartHasMore_iff, hpending, ← List.length_pos_iff, List.length_drop, List.length_append,
      hlen₂]
    decide
  have hidle : s₃.pipeline = .idle := hpipeline₃.trans (hpipeline₂.trans hpipeline₁)
  have hpoll : uartThreadsStep wireCodec s₃ .hasMore = some { s₃ with pipeline := .readable } := by
    simp [uartThreadsStep, hidle, hmore]
  have hreceived : s₃.received.head? = some 1 := by
    rw [hreceived₃, hreceived₂, hreceived₁]
    rfl
  have hreturned : s₃.returned ++ [(uartReadByte s₃.uart).1] = [0] := by
    rw [hreturned₃, hreturned₂, hreturned₁, hbyte]
    rfl
  let s := { s₃ with
    uart := (uartReadByte s₃.uart).2
    pipeline := .idle
    returned := s₃.returned ++ [(uartReadByte s₃.uart).1] }
  have hread : uartThreadsStep wireCodec { s₃ with pipeline := .readable } .readByte = some s :=
    rfl
  refine ⟨s, ?_, hreceived, hreturned, ?_⟩
  · refine (run_append_eq_some_iff _).mpr ⟨s₁, hrun₁, (run_append_eq_some_iff _).mpr
      ⟨s₂, hrun₂, (run_append_eq_some_iff _).mpr ⟨s₃, hrun₃, ?_⟩⟩⟩
    exact (run_cons_eq_some_iff _).mpr ⟨_, hpoll, (run_cons_eq_some_iff _).mpr ⟨_, hread, rfl⟩⟩
  · rintro ⟨rest, hrest⟩
    have hhead : s₃.received.head? = some 0 := by
      rw [← show s.returned ++ rest = s₃.received from hrest, show s.returned = [0] from hreturned]
      rfl
    rw [hreceived] at hhead
    cases hhead

end SecureGateway
