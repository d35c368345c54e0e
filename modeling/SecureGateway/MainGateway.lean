import SecureGateway.SocketGateway
import SecureGateway.UartInput

/-!
# The gateway of `main.c`

The legacy components behind a listening TCP socket, the vehicle behind a UART, each
with its reader thread beside the pipeline. The history of the UART inside the gateway
is a run of its two threads, so that what its shared array does to input and output
there it does here.

## Implementation notes

What the UART reader does before each access of the pipeline, and between the encoding
of a message and its write, is a schedule the link holds; a step it cannot take is
skipped. A `read` that returns zero fails the assertion of `ring_buffer_copy_from`, which is
noted in the history. `uart_read_byte` does not look at `initialized`: a call on an object that is
not initialized, which would lock a mutex that is not there, is noted in the link.
-/

namespace SecureGateway

open Library

/-! ### Input and sends -/

/-- A step that appends no more than fits, and encodes over no unread byte. -/
def InputKept (codec : MavlinkCodec) (s : UartThreads) (l : UartLabel) : Prop :=
  ChunkFits s l ∧ ∀ msg, l = .encode msg → FrameClear codec s.uart msg

/-- Of all steps only an append of a chunk that does not fit and an encoding over unread bytes
lose input. -/
theorem lossless_kept_iff {codec : MavlinkCodec} {s t : UartThreads} {l : UartLabel}
    (hs : Lossless s) (hreads : ReadsPending s) (h : uartThreadsStep codec s l = some t) :
    Lossless t ↔ InputKept codec s l := by
  cases hl : l.routes with
  | false =>
      rw [lossless_step_iff hs hreads hl h, InputKept]
      refine (and_iff_left ?_).symm
      rintro msg rfl
      cases hl
  | true =>
      cases l with
      | read chunk => cases hl
      | append => cases hl
      | wake => cases hl
      | hasMore => cases hl
      | readByte => cases hl
      | encode msg =>
          simp only [uartThreadsStep] at h
          split at h
          · cases h
            have hfits : ChunkFits s (.encode msg) := fun heq => by cases heq
            have hclear : InputKept codec s (.encode msg) ↔ FrameClear codec s.uart msg := by
              simp [InputKept, hfits]
            rw [hclear, ← pending_uartRouteTo_iff]
            unfold Lossless at hs
            -- the chunk in hand is in the other array
            have hhand : { s with
                uart := (uartEncode codec s.uart msg).1
                pipeline := .encoded msg (uartEncode codec s.uart msg).2
                since := [] }.inHand = s.inHand := by
              unfold UartThreads.inHand
              cases s.reader <;> simp [uartEncode]
            simp only [Lossless, hhand]
            rw [← hs, List.append_assoc, List.append_assoc, List.append_cancel_left_eq,
              List.append_cancel_right_eq]
            rfl
          · cases h
      | write =>
          simp only [uartThreadsStep] at h
          split at h
          · cases h
            refine iff_of_true hs ⟨(fun heq => by cases heq), ?_⟩
            intro msg heq
            cases heq
          · cases h

theorem ReadsPending.kept {codec : MavlinkCodec} {s t : UartThreads} {l : UartLabel}
    (hs : ReadsPending s) (h : uartThreadsStep codec s l = some t) : ReadsPending t := by
  cases hl : l.routes with
  | false => exact hs.step hl h
  | true =>
      intro hpc
      rcases uartThreadsStep_cases h with ⟨chunk, rfl, -⟩ | ⟨n, rfl, -⟩ | ⟨rfl, -⟩ | ⟨rfl, -⟩ |
        ⟨rfl, -⟩ | ⟨msg, rfl, -, rfl⟩ | ⟨msg, len, rfl, -, rfl⟩
      · cases hl
      · cases hl
      · cases hl
      · cases hl
      · cases hl
      · cases hpc
      · cases hpc

/-- Input is never lost in a run exactly when none of its steps loses any. -/
theorem lossless_run_iff {codec : MavlinkCodec} {mem : Memory UartArray}
    {labels : List UartLabel} {s : UartThreads}
    (hrun : run (uartThreadsStep codec) (.start mem) labels = some s) :
    Along (uartThreadsStep codec)
        (fun s l => ∀ t, uartThreadsStep codec s l = some t → Lossless t) (.start mem) labels ↔
      Along (uartThreadsStep codec) (InputKept codec) (.start mem) labels := by
  refine along_iff_of_run _ (fun s => Lossless s ∧ ReadsPending s) ?_ ?_
    ⟨lossless_start mem, readsPending_start mem⟩ hrun
  · rintro s l t ⟨hs, hreads⟩ hstep
    rw [← lossless_kept_iff hs hreads hstep]
    constructor
    · intro hall
      exact hall t hstep
    · rintro hlossless u hu
      rw [hstep] at hu
      cases hu
      exact hlossless
  · rintro s l t ⟨-, hreads⟩ hkeeps hstep
    exact ⟨hkeeps t hstep, hreads.kept hstep⟩

theorem lossless_of_run {codec : MavlinkCodec} {mem : Memory UartArray}
    {labels : List UartLabel} {s : UartThreads}
    (hkeeps : Along (uartThreadsStep codec) (InputKept codec) (.start mem) labels)
    (hrun : run (uartThreadsStep codec) (.start mem) labels = some s) : Lossless s := by
  refine (run_invariant_along _ (fun s => Lossless s ∧ ReadsPending s) ?_
    ⟨lossless_start mem, readsPending_start mem⟩ hkeeps hrun).1
  rintro s l - t ⟨hs, hreads⟩ hkept hstep
  exact ⟨(lossless_kept_iff hs hreads hstep).mpr hkept, hreads.kept hstep⟩

/-! ### The UART as a link -/

/-- The steps the reader thread takes. -/
def UartLabel.isReader : UartLabel → Bool
  | read _ | append | wake => true
  | hasMore | readByte | encode _ | write => false

/-- What the reader does during a call: before the access of the pipeline, and between the
encoding of a message and its write. -/
structure UartTurn where
  before : List UartLabel
  between : List UartLabel

/-- The two threads with the steps they took, and whether an assertion of the reader failed. -/
structure UartHistory where
  threads : UartThreads
  taken : List UartLabel
  failed : Bool

def UartHistory.start (mem : Memory UartArray) : UartHistory := ⟨.start mem, [], false⟩

/-- Whether the step makes the reader copy nothing into the ring, which it asserts it does not. -/
def UartThreads.asserts (s : UartThreads) : UartLabel → Bool
  | .read [] =>
      match s.reader with
      | .reading => true
      | _ => false
  | _ => false

/-- A step, if it can be taken. -/
def UartHistory.perform (codec : MavlinkCodec) (h : UartHistory) (l : UartLabel) : UartHistory :=
  match uartThreadsStep codec h.threads l with
  | some threads => { h with threads := threads, taken := h.taken ++ [l] }
  | none => { h with failed := h.failed || h.threads.asserts l }

/-- The reader runs. -/
def UartHistory.readerRuns (codec : MavlinkCodec) (h : UartHistory) (labels : List UartLabel) :
    UartHistory :=
  (labels.filter UartLabel.isReader).foldl (UartHistory.perform codec) h

/-- A UART object: what its init routine and its reader will do, and the route calls that
failed because the device could not be initialized. -/
structure UartLink where
  history : Option UartHistory
  inits : Nat → Option (Memory UartArray)
  schedule : Nat → UartTurn
  calls : Nat
  refused : Nat
  aborted : Bool

namespace UartLink

/-- The object as its hook leaves it. -/
def start (inits : Nat → Option (Memory UartArray)) (schedule : Nat → UartTurn) : UartLink where
  history := none
  inits := inits
  schedule := schedule
  calls := 0
  refused := 0
  aborted := false

/-- `if (!uart->initialized) uart_init(uart)`. -/
def ready (a : UartLink) : Option UartHistory :=
  match a.history with
  | some h => some h
  | none => (a.inits a.calls).map .start

def hasMore (codec : MavlinkCodec) (a : UartLink) : Int × UartLink :=
  match a.ready with
  | none => (0, { a with calls := a.calls + 1 })
  | some h =>
      let h := h.readerRuns codec (a.schedule a.calls).before
      (if uartHasMore h.threads.uart then 1 else 0,
        { a with history := some (h.perform codec .hasMore), calls := a.calls + 1 })

def readByte (codec : MavlinkCodec) (a : UartLink) : Int × UartLink :=
  match a.history with
  | none => (0, { a with calls := a.calls + 1, aborted := true })
  | some h =>
      let h := h.readerRuns codec (a.schedule a.calls).before
      ((uartReadByte h.threads.uart).1.toNat,
        { a with history := some (h.perform codec .readByte), calls := a.calls + 1 })

def routeTo (codec : MavlinkCodec) (msg : MavlinkMessage) (a : UartLink) : UartLink :=
  match a.ready with
  | none => { a with calls := a.calls + 1, refused := a.refused + 1 }
  | some h =>
      let h := h.readerRuns codec (a.schedule a.calls).before
      let h := h.perform codec (.encode msg)
      let h := h.readerRuns codec (a.schedule a.calls).between
      { a with history := some (h.perform codec .write), calls := a.calls + 1 }

def ops (codec : MavlinkCodec) : LinkOps UartLink where
  hasMore := hasMore codec
  readByte := readByte codec
  route := routeTo codec

end UartLink

/-! ### The history of the link -/

/-- The history is a run of the two threads. -/
def UartHistory.Reached (codec : MavlinkCodec) (h : UartHistory) : Prop :=
  ∃ mem, run (uartThreadsStep codec) (.start mem) h.taken = some h.threads

theorem UartHistory.Reached.perform {codec : MavlinkCodec} {h : UartHistory}
    (hh : h.Reached codec) (l : UartLabel) : (h.perform codec l).Reached codec := by
  obtain ⟨mem, hrun⟩ := hh
  unfold UartHistory.perform
  cases hstep : uartThreadsStep codec h.threads l with
  | none => exact ⟨mem, hrun⟩
  | some t =>
      refine ⟨mem, (run_append_eq_some_iff _).mpr ⟨h.threads, hrun, ?_⟩⟩
      exact (run_cons_eq_some_iff _).mpr ⟨t, hstep, rfl⟩

/-- Only a `read` that returns zero fails an assertion. -/
theorem perform_failed {codec : MavlinkCodec} {h : UartHistory} {l : UartLabel}
    (hl : l ≠ .read []) : (h.perform codec l).failed = h.failed := by
  have hno : h.threads.asserts l = false := by
    unfold UartThreads.asserts
    split
    · exact absurd rfl hl
    · rfl
  unfold UartHistory.perform
  split
  · rfl
  · simp [hno]

/-- An access of the pipeline after a reader that got a byte from each `read`. -/
theorem access_failed {codec : MavlinkCodec} {h : UartHistory} {labels : List UartLabel}
    {l : UartLabel} (hlabels : .read [] ∉ labels) (hl : l.isReader = false) :
    ((h.readerRuns codec labels).perform codec l).failed = h.failed := by
  have hreader : (h.readerRuns codec labels).failed = h.failed := by
    unfold UartHistory.readerRuns
    refine List.foldlRecOn (motive := fun (k : UartHistory) => k.failed = h.failed) _ _ rfl ?_
    intro k hk l' hl'
    refine (perform_failed ?_).trans hk
    rintro rfl
    exact hlabels (List.mem_of_mem_filter hl')
  refine (perform_failed ?_).trans hreader
  rintro rfl
  cases hl

/-- A step of the reader returns and writes nothing. -/
theorem uartThreadsStep_reader {codec : MavlinkCodec} {s t : UartThreads} {l : UartLabel}
    (hl : l.isReader) (h : uartThreadsStep codec s l = some t) :
    t.pipeline = s.pipeline ∧ t.returned = s.returned ∧ t.written = s.written := by
  rcases uartThreadsStep_cases h with ⟨chunk, rfl, -, -, rfl⟩ | ⟨n, rfl, -, rfl⟩ |
    ⟨rfl, -, rfl⟩ | ⟨rfl, -⟩ | ⟨rfl, -⟩ | ⟨msg, rfl, -⟩ | ⟨msg, len, rfl, -⟩
  · exact ⟨rfl, rfl, rfl⟩
  · exact ⟨rfl, rfl, rfl⟩
  · exact ⟨rfl, rfl, rfl⟩
  · cases hl
  · cases hl
  · cases hl
  · cases hl

/-- What the reader leaves alone. -/
structure UartReaderOnly (codec : MavlinkCodec) (h k : UartHistory) : Prop where
  reached : k.Reached codec
  pipeline : k.threads.pipeline = h.threads.pipeline
  returned : k.threads.returned = h.threads.returned
  written : k.threads.written = h.threads.written

theorem UartReaderOnly.perform {codec : MavlinkCodec} {h k : UartHistory}
    (hk : UartReaderOnly codec h k) {l : UartLabel} (hl : l.isReader) :
    UartReaderOnly codec h (k.perform codec l) := by
  have hreached := hk.reached.perform l
  unfold UartHistory.perform at hreached ⊢
  cases hstep : uartThreadsStep codec k.threads l with
  | none => exact ⟨hk.reached, hk.pipeline, hk.returned, hk.written⟩
  | some t =>
      rw [hstep] at hreached
      obtain ⟨hpipeline, hreturned, hwritten⟩ := uartThreadsStep_reader hl hstep
      exact ⟨hreached, hpipeline.trans hk.pipeline, hreturned.trans hk.returned,
        hwritten.trans hk.written⟩

theorem readerRuns_uartReaderOnly {codec : MavlinkCodec} {h : UartHistory}
    (hh : h.Reached codec) (labels : List UartLabel) :
    UartReaderOnly codec h (h.readerRuns codec labels) := by
  refine List.foldlRecOn _ _ ⟨hh, rfl, rfl, rfl⟩ ?_
  intro k hk l hl
  exact hk.perform (List.mem_filter.mp hl).2

/-- Every `read` during the call gets a byte. -/
def UartTurn.ReadsBytes (turn : UartTurn) : Prop :=
  .read [] ∉ turn.before ∧ .read [] ∉ turn.between

/-- The UART gave away what its `read_byte` returned, and wrote something for every message it
was handed once it was initialized. -/
structure UartLink.Kept (codec : MavlinkCodec) (schedule : Nat → UartTurn) (a : UartLink)
    (bytes : List UInt8) (msgs : List MavlinkMessage) : Prop where
  unset : a.history = none → bytes = [] ∧ msgs.length = a.refused
  reached : ∀ h, a.history = some h → h.Reached codec
  idle : ∀ h, a.history = some h → h.threads.pipeline = .idle
  returned : ∀ h, a.history = some h → h.threads.returned = bytes
  refused : a.refused ≤ msgs.length
  written : ∀ h, a.history = some h →
    h.threads.written.map Prod.fst = msgs.drop a.refused
  running : a.aborted = false
  scheduled : a.schedule = schedule
  sound : (∀ n, (schedule n).ReadsBytes) → ∀ h, a.history = some h → h.failed = false

namespace UartLink.Kept

variable {codec : MavlinkCodec} {schedule : Nat → UartTurn} {a b : UartLink}
  {bytes : List UInt8} {msgs : List MavlinkMessage} {h : UartHistory}

/-- An object that is initialized, maybe just now, is where a call expects it. -/
theorem ready (ha : a.Kept codec schedule bytes msgs) (hready : a.ready = some h) :
    h.Reached codec ∧ h.threads.pipeline = .idle ∧ h.threads.returned = bytes ∧
      h.threads.written.map Prod.fst = msgs.drop a.refused ∧
      ((∀ n, (schedule n).ReadsBytes) → h.failed = false) := by
  unfold UartLink.ready at hready
  cases hhistory : a.history with
  | some h' =>
      rw [hhistory] at hready
      cases hready
      exact ⟨ha.reached h hhistory, ha.idle h hhistory, ha.returned h hhistory,
        ha.written h hhistory, fun hreads => ha.sound hreads h hhistory⟩
  | none =>
      rw [hhistory] at hready
      obtain ⟨mem, -, rfl⟩ := Option.map_eq_some_iff.mp hready
      obtain ⟨rfl, hlength⟩ := ha.unset hhistory
      refine ⟨⟨mem, rfl⟩, rfl, rfl, ?_, fun _ => rfl⟩
      rw [← hlength, List.drop_length]
      rfl

/-- The object after a call that left its threads idle. -/
theorem set {bytes' : List UInt8} {msgs' : List MavlinkMessage}
    (ha : a.Kept codec schedule bytes msgs) (hhistory : b.history = some h)
    (hreached : h.Reached codec) (hidle : h.threads.pipeline = .idle)
    (hreturned : h.threads.returned = bytes')
    (hwritten : h.threads.written.map Prod.fst = msgs'.drop a.refused)
    (hmsgs : msgs.length ≤ msgs'.length) (hrefused : b.refused = a.refused)
    (haborted : b.aborted = a.aborted) (hschedule : b.schedule = a.schedule)
    (hsound : (∀ n, (schedule n).ReadsBytes) → h.failed = false) :
    b.Kept codec schedule bytes' msgs' := by
  have hsame (k : UartHistory) (hk : b.history = some k) : k = h :=
    Option.some.inj (hk.symm.trans hhistory)
  constructor
  · intro hnone
    rw [hhistory] at hnone
    cases hnone
  · intro k hk
    rw [hsame k hk]
    exact hreached
  · intro k hk
    rw [hsame k hk]
    exact hidle
  · intro k hk
    rw [hsame k hk]
    exact hreturned
  · rw [hrefused]
    exact ha.refused.trans hmsgs
  · intro k hk
    rw [hsame k hk, hrefused]
    exact hwritten
  · rw [haborted]
    exact ha.running
  · rw [hschedule]
    exact ha.scheduled
  · intro hreads k hk
    rw [hsame k hk]
    exact hsound hreads

end UartLink.Kept

section Steps

variable (codec : MavlinkCodec) {h : UartHistory}

theorem perform_hasMore (hpc : h.threads.pipeline = .idle) :
    let k := h.perform codec .hasMore
    k.threads.pipeline = (if uartHasMore h.threads.uart then .readable else .idle) ∧
      k.threads.returned = h.threads.returned ∧ k.threads.written = h.threads.written := by
  simp [UartHistory.perform, uartThreadsStep, hpc]

theorem perform_readByte (hpc : h.threads.pipeline = .readable) :
    let k := h.perform codec .readByte
    k.threads.pipeline = .idle ∧
      k.threads.returned = h.threads.returned ++ [(uartReadByte h.threads.uart).1] ∧
      k.threads.written = h.threads.written := by
  simp [UartHistory.perform, uartThreadsStep, hpc]

theorem perform_encode (hpc : h.threads.pipeline = .idle) (msg : MavlinkMessage) :
    let k := h.perform codec (.encode msg)
    (∃ len, k.threads.pipeline = .encoded msg len) ∧
      k.threads.returned = h.threads.returned ∧ k.threads.written = h.threads.written := by
  simp [UartHistory.perform, uartThreadsStep, hpc]

theorem perform_write {msg : MavlinkMessage} {len : Nat}
    (hpc : h.threads.pipeline = .encoded msg len) :
    let k := h.perform codec .write
    k.threads.pipeline = .idle ∧ k.threads.returned = h.threads.returned ∧
      k.threads.written = h.threads.written ++ [(msg, uartWrite h.threads.uart len)] := by
  simp [UartHistory.perform, uartThreadsStep, hpc]

end Steps

theorem uartOps_lawful (codec : MavlinkCodec) (schedule : Nat → UartTurn) :
    (UartLink.ops codec).Lawful (UartLink.Kept codec schedule) where
  silent a bytes msgs ha hnone := by
    simp only [UartLink.ops, UartLink.hasMore] at hnone ⊢
    cases hready : a.ready with
    | none => exact { ha with }
    | some h =>
        rw [hready] at hnone
        obtain ⟨hh, hidle, hreturned, hwritten, hsound⟩ := ha.ready hready
        have hrun := readerRuns_uartReaderOnly hh (a.schedule a.calls).before
        obtain ⟨hpipeline, hsame, hsame'⟩ := perform_hasMore codec
          (hrun.pipeline.trans hidle)
        have hno : uartHasMore (h.readerRuns codec (a.schedule a.calls).before).threads.uart =
            false := by
          by_contra hyes
          simp [hyes] at hnone
        rw [hno] at hpipeline
        refine ha.set rfl (hrun.reached.perform _) hpipeline
          (hsame.trans (hrun.returned.trans hreturned)) ?_ (Nat.le_refl _) rfl rfl rfl ?_
        · rw [hsame', hrun.written]
          exact hwritten
        · intro hreads
          rw [ha.scheduled]
          exact (access_failed (hreads _).1 rfl).trans (hsound hreads)
  read a bytes msgs ha hsome := by
    simp only [UartLink.ops, UartLink.hasMore] at hsome ⊢
    cases hready : a.ready with
    | none =>
        rw [hready] at hsome
        exact absurd rfl hsome
    | some h =>
        rw [hready] at hsome
        obtain ⟨hh, hidle, hreturned, hwritten, hsound⟩ := ha.ready hready
        have hrun := readerRuns_uartReaderOnly hh (a.schedule a.calls).before
        obtain ⟨hpipeline, hsame, hsame'⟩ := perform_hasMore codec
          (hrun.pipeline.trans hidle)
        have hyes : uartHasMore (h.readerRuns codec (a.schedule a.calls).before).threads.uart =
            true := by
          by_contra hno
          simp [hno] at hsome
        rw [hyes, if_pos rfl] at hpipeline
        have hrun' := readerRuns_uartReaderOnly (hrun.reached.perform .hasMore)
          (a.schedule (a.calls + 1)).before
        have hpc := hrun'.pipeline.trans hpipeline
        obtain ⟨hidle', hbyte, hwritten'⟩ :=
          perform_readByte codec (hrun'.pipeline.trans hpipeline)
        refine ha.set rfl (hrun'.reached.perform .readByte) hidle' ?_ ?_ (Nat.le_refl _) rfl rfl
          rfl ?_
        · rw [hbyte, hrun'.returned, hsame, hrun.returned, hreturned]
          simp [UartLink.readByte, byteOfInt_toNat]
        · rw [hwritten', hrun'.written, hsame', hrun.written]
          exact hwritten
        · intro hreads
          simp only [ha.scheduled]
          exact (access_failed (hreads _).1 rfl).trans
            ((access_failed (hreads _).1 rfl).trans (hsound hreads))
  route a bytes msgs msg ha := by
    simp only [UartLink.ops, UartLink.routeTo]
    cases hready : a.ready with
    | none =>
        have hnone : a.history = none := by
          unfold UartLink.ready at hready
          split at hready
          · cases hready
          · assumption
        have hcount : (msgs ++ [msg]).length = a.refused + 1 := by
          rw [List.length_append, (ha.unset hnone).2, List.length_singleton]
        refine ⟨fun _ => ⟨(ha.unset hnone).1, hcount⟩, ha.reached, ha.idle, ha.returned,
          hcount.ge, ?_, ha.running, ha.scheduled, ha.sound⟩
        intro h hh
        rw [hnone] at hh
        cases hh
    | some h =>
        obtain ⟨hh, hidle, hreturned, hwritten, hsound⟩ := ha.ready hready
        have hrun := readerRuns_uartReaderOnly hh (a.schedule a.calls).before
        obtain ⟨⟨len, hencoded⟩, hsame, hsame'⟩ := perform_encode codec
          (hrun.pipeline.trans hidle) msg
        have hrun' := readerRuns_uartReaderOnly (hrun.reached.perform (.encode msg))
          (a.schedule a.calls).between
        obtain ⟨hidle', hsame'', hwritten'⟩ :=
          perform_write codec (hrun'.pipeline.trans hencoded)
        refine ha.set rfl (hrun'.reached.perform .write) hidle' ?_ ?_ (by simp) rfl rfl rfl ?_
        · rw [hsame'', hrun'.returned, hsame, hrun.returned]
          exact hreturned
        · rw [hwritten', hrun'.written, hsame', hrun.written, List.map_append, hwritten,
            List.map_singleton, List.drop_append_of_le_length ha.refused]
        · intro hreads
          rw [ha.scheduled]
          exact (access_failed (hreads _).2 rfl).trans
            ((access_failed (hreads _).1 rfl).trans (hsound hreads))

/-! ### The gateway -/

/-- The connection objects of `main`. -/
inductive MainPort
  | tcp
  | uart
deriving DecidableEq

/-- The link behind a connection object. -/
def MainLink : MainPort → Type
  | .tcp => SocketLink tcpKind
  | .uart => UartLink

def mainOps (codec : MavlinkCodec) : ∀ l, LinkOps (MainLink l)
  | .tcp => SocketLink.ops codec
  | .uart => UartLink.ops codec

/-- What is kept of each link. -/
def MainLink.Kept (codec : MavlinkCodec) (schedule : Nat → UartTurn) :
    ∀ l, MainLink l → List UInt8 → List MavlinkMessage → Prop
  | .tcp => SocketLink.Kept (K := tcpKind) codec
  | .uart => UartLink.Kept codec schedule

theorem mainOps_lawful (codec : MavlinkCodec) (schedule : Nat → UartTurn) (l : MainPort) :
    (mainOps codec l).Lawful (MainLink.Kept codec schedule l) := by
  cases l with
  | tcp => exact socketOps_lawful codec
  | uart => exact uartOps_lawful codec schedule

/-- What the reader threads of the two objects will do. -/
structure MainThreads where
  tcpInits : Nat → Option (Nat → UInt8)
  tcpReader : Nat → SocketTurn Int Unit
  uartInits : Nat → Option (Memory UartArray)
  uartReader : Nat → UartTurn

/-- The objects as the hooks leave them. -/
def MainThreads.links (t : MainThreads) : ∀ l, MainLink l
  | .tcp => SocketLink.start (K := tcpKind) t.tcpInits t.tcpReader
  | .uart => UartLink.start t.uartInits t.uartReader

theorem MainThreads.kept (codec : MavlinkCodec) (t : MainThreads) (l : MainPort) :
    MainLink.Kept codec t.uartReader l (t.links l) [] [] := by
  cases l with
  | tcp =>
      refine ⟨fun _ => rfl, ?_, ?_, ?_, List.Forall₂.nil, rfl⟩
      · intro s hs
        cases hs
      · intro s hs
        cases hs
      · intro s hs
        cases hs
  | uart =>
      refine ⟨fun _ => ⟨rfl, rfl⟩, ?_, ?_, ?_, Nat.le_refl 0, ?_, rfl, rfl, fun _ => nofun⟩
      · intro h hh
        cases hh
      · intro h hh
        cases hh
      · intro h hh
        cases hh
      · intro h hh
        cases hh

/-- The gateway between a TCP socket and a UART, in every run and in every interleaving with
their reader threads. As long as each `read` of the UART gets a byte it stops short for want of
fuel at most and fails no assertion, and every message completed is handed to exactly the sinks
its route and the policies call for. The socket gives away what its
reader received and is offered whole frames. The steps of the UART are a run of its two
threads: what was read from it is what that run returned and what it was handed is what that
run wrote, exactly as long as the reader keeps each frame between encoding and write; its input
is never lost exactly when each chunk appended fits and no frame is encoded over unread
bytes. -/
theorem main_gateway {G T : Type} (codec : MavlinkCodec)
    {securityPolicyInit : SecurityPolicyMgmt → Except Fault SecurityPolicyMgmt}
    {prior initial p : Pipeline (Links MainLink T)} {setup : List (LinkSetup MainPort T)}
    (hinit : pipelineInit securityPolicyInit prior = .ok initial)
    (hsetup : configure initial (setup.map (LinkSetup.op (mainOps codec))) = .ok p)
    (hops : p.OpsKeepRouting)
    (hverdict : ∀ policy ∈ p.policies.policies, policy.VerdictIgnoresAttr)
    {env : Env (Links MainLink T) G}
    (hclock : ∀ world, (env.timeUs world).2.link = world.link)
    (t : MainThreads) (rest : T) (parser : G) (actions : List Action) :
    let r := runActions env (Machine.start p ⟨t.links, rest⟩ parser) actions
    let m := finalMachine r
    let w := wiring setup
    let tcp : SocketLink tcpKind := m.world.link .tcp
    let uart : UartLink := m.world.link .uart
    OnlyFuel r ∧
    (∀ turn ∈ m.log, turn.calls.map Prod.fst = turn.expected p) ∧
    (∀ s, tcp.socket = some s → readFrom w .tcp m.log = s.returned ∧ Delivered s) ∧
    List.Forall₂ (fun msg o => ∀ x ∈ o, x.2 = codec.msgToSendBuffer msg)
      (handedTo w .tcp m.log) tcp.offered ∧
    tcp.aborted = false ∧ uart.aborted = false ∧
    (uart.history = none → readFrom w .uart m.log = []) ∧
    ∀ h, uart.history = some h →
      ((∀ n, (t.uartReader n).ReadsBytes) → h.failed = false) ∧
      readFrom w .uart m.log = h.threads.returned ∧
      h.threads.written.map Prod.fst = (handedTo w .uart m.log).drop uart.refused ∧
      ∃ mem, run (uartThreadsStep codec) (.start mem) h.taken = some h.threads ∧
        (WrittenExact codec h.threads ↔
          Along (uartThreadsStep codec) (FrameKept codec) (.start mem) h.taken) ∧
        (Along (uartThreadsStep codec)
            (fun s l => ∀ t, uartThreadsStep codec s l = some t → Lossless t)
            (.start mem) h.taken ↔
          Along (uartThreadsStep codec) (InputKept codec) (.start mem) h.taken) ∧
        (Along (uartThreadsStep codec) (InputKept codec) (.start mem) h.taken →
          readFrom w .uart m.log ++ h.threads.uart.pending ++ h.threads.inHand =
            h.threads.received) := by
  intro r m w tcp uart
  have hkept := ledger_kept (mainOps_lawful codec t.uartReader) hinit hsetup hops hverdict hclock
    ⟨t.links, rest⟩ (t.kept codec) parser actions
  have htcp : tcp.Kept codec (readFrom w .tcp m.log) (handedTo w .tcp m.log) :=
    hkept.inv.links .tcp
  have huart : uart.Kept codec t.uartReader (readFrom w .uart m.log) (handedTo w .uart m.log) :=
    hkept.inv.links .uart
  refine ⟨hkept.fuel, fun turn hturn => (hkept.inv.log turn hturn).calls, ?_, htcp.offered,
    htcp.running, huart.running, fun hnone => (huart.unset hnone).1, ?_⟩
  · intro s hs
    exact ⟨(htcp.returned s hs).symm, (htcp.inv s hs).delivered⟩
  · intro h hh
    obtain ⟨mem, hrun⟩ := huart.reached h hh
    have hread := huart.returned h hh
    refine ⟨fun hreads => huart.sound hreads h hh, hread.symm, huart.written h hh, mem, hrun, ?_,
      lossless_run_iff hrun, ?_⟩
    · have hstart : FrameUnderStores codec (.start mem) := by
        intro msg len hpc
        cases hpc
      rw [writtenExact_run_iff hstart hrun]
      simp [WrittenExact, UartThreads.start]
    · intro hkeeps
      rw [← hread]
      exact lossless_of_run hkeeps hrun

/-- The registrations of `main`. -/
def mainSetup : List (LinkSetup MainPort Unit) :=
  [.hook SourceType.legacy.id SinkType.legacy.id .tcp,
    .hook SourceType.vmc.id SinkType.vmc.id .uart,
    .hookStdioSink SinkType.discard.id fun _ rest => rest]

def mainPipeline : Pipeline (Links MainLink Unit) :=
  match configure (shippedPipeline wireCodec)
      (mainSetup.map (LinkSetup.op (mainOps wireCodec))) with
  | .ok p => p
  | .error _ => .zero

theorem main_setup : configure (shippedPipeline wireCodec)
    (mainSetup.map (LinkSetup.op (mainOps wireCodec))) = .ok mainPipeline := rfl

def mainEnv : Env (Links MainLink Unit) (Nat → List UInt8) where
  debug := true
  parser := wireParser
  timeUs world := (0, world)

/-- Both sides send a heartbeat before the first call on their link. -/
def mainThreads : MainThreads where
  tcpInits _ := some fun _ => 0
  tcpReader n :=
    { first :=
        if n = 0 then
          [.connect 5, .recv heartbeat (), .lock, .setCurRead, .setBufferSize, .test]
        else []
      second := []
      third := []
      atLock := []
      curFirst := true }
  uartInits _ := some fun _ _ => 0
  uartReader n := { before := if n = 0 then [.read heartbeat, .append] else [], between := [] }

theorem mainPipeline_opsKeepRouting : mainPipeline.OpsKeepRouting := by
  have hsource : ∀ i, (mainPipeline.sources i).transform.isSome = false := by decide
  have hsink : ∀ k, (mainPipeline.sinks k).transform.isSome = false := by decide
  have hroutes : mainPipeline.RoutesKeepMessage :=
    (configure_wired (pipelineInit_wired (pipelineInit_shipped wireCodec))
      main_setup).routesKeepMessage
  apply hroutes.opsKeepRouting
  · intro i f hf
    simpa [hf] using hsource i
  · intro k f hf
    simpa [hf] using hsink k

/-- The round in which the heartbeats cross. -/
def mainRound : Machine (Links MainLink Unit) (Nat → List UInt8) :=
  finalMachine (runActions mainEnv
    (Machine.start mainPipeline ⟨mainThreads.links, ()⟩ fun _ => []) [.spin 20])

/-- What was sent to the client, and on which connection. -/
def mainOffered : List (Option (Int × List UInt8)) :=
  (mainRound.world.link .tcp : SocketLink tcpKind).offered

/-- Both heartbeats cross the gateway. -/
theorem main_gateway_heartbeats :
    mainOffered = [some (5, heartbeat)] ∧
      ∀ h, (mainRound.world.link .uart : UartLink).history = some h →
        h.failed = false ∧ h.threads.returned = heartbeat ∧
          h.threads.written.map Prod.snd = [heartbeat] := by
  have hclock : ∀ world, (mainEnv.timeUs world).2.link = world.link := fun _ => rfl
  obtain ⟨-, -, -, -, -, -, -, huart⟩ := main_gateway wireCodec
    (pipelineInit_shipped wireCodec) main_setup mainPipeline_opsKeepRouting
    (shippedPolicies_verdictIgnoresAttr wireCodec) hclock mainThreads () (fun _ => [])
    [.spin 20]
  have hwritten : (mainRound.world.link .uart : UartLink).history.all fun h =>
      decide (h.threads.written.map Prod.snd = [heartbeat]) := by
    decide +kernel
  have hreads (n : Nat) : (mainThreads.uartReader n).ReadsBytes := by
    refine ⟨?_, List.not_mem_nil⟩
    simp only [mainThreads]
    split <;> simp [heartbeat]
  refine ⟨by decide +kernel, ?_⟩
  intro h hh
  obtain ⟨hsound, hread, -⟩ := huart h hh
  rw [hh] at hwritten
  exact ⟨hsound hreads, hread.symm.trans (by decide +kernel), of_decide_eq_true hwritten⟩

end SecureGateway
