import Mathlib.Algebra.Order.BigOperators.Group.List
import SecureGateway.Drained
import SecureGateway.SocketGateway

/-!
# The gateway over threaded sockets empties its connections

A reader thread takes bytes in whenever it runs, so that a round only empties a
connection whose sender is silent for the round. How much the reader threads can hand
over at all is bounded by what they receive, whatever the order of their steps.
-/

namespace SecureGateway

open Library

variable {K : SocketKind}

/-- The bytes a step brings in. -/
def SocketLabel.length {C S : Type} : SocketLabel C S → Nat
  | recv chunk _ => chunk.length
  | _ => 0

def SocketTurn.labels {C S : Type} (x : SocketTurn C S) : List (SocketLabel C S) :=
  x.first ++ x.second ++ x.third ++ x.atLock

/-- The bytes the steps of some labels bring in. -/
def receivedBy {C S : Type} (labels : List (SocketLabel C S)) : Nat :=
  (labels.map SocketLabel.length).sum

/-- The bytes the reader may receive during a call. -/
def SocketTurn.length {C S : Type} (x : SocketTurn C S) : Nat := receivedBy x.labels

@[simp] theorem receivedBy_nil {C S : Type} : receivedBy ([] : List (SocketLabel C S)) = 0 := rfl

@[simp] theorem receivedBy_cons {C S : Type} (l : SocketLabel C S)
    (labels : List (SocketLabel C S)) :
    receivedBy (l :: labels) = l.length + receivedBy labels := by
  simp [receivedBy]

theorem SocketTurn.length_eq {C S : Type} (x : SocketTurn C S) :
    x.length =
      receivedBy x.first + receivedBy x.second + receivedBy x.third + receivedBy x.atLock := by
  simp [SocketTurn.length, SocketTurn.labels, receivedBy, Nat.add_assoc]

/-- The bytes the pipeline can still get out of the object, a chunk in the hands of the reader
included. -/
def SocketSource.ahead {L : Type} (s : SocketSource L) : Nat :=
  match s.reader with
  | .received n | .setCur n | .setSize n => n
  | .top | .receiving | .check | .waiting => s.bufferSize - s.curRead

/-! ### What is ahead -/

/-- A step of the reader adds no more than it receives. -/
theorem perform_ahead {l : SocketLabel K.C K.S} (hl : l.isReader) (s : SocketSource K.L) :
    (perform K.transport s l).ahead ≤ s.ahead + l.length := by
  unfold perform
  cases l with
  | pollSize | loadCur | loadSize | signal | readByte => cases hl
  | enter | recvFail | wake =>
      simp only [socketStep]
      split
      · rename_i h
        simp_all [SocketSource.ahead, SocketLabel.length]
      · exact Nat.le_add_right _ _
  | connect outcome =>
      simp only [socketStep]
      split
      · rename_i h
        cases (K.transport.connect s.link outcome).2 <;>
          simp [SocketSource.ahead, SocketLabel.length, h.1]
      · exact Nat.le_add_right _ _
  | recv chunk sender =>
      simp only [socketStep]
      split
      · exact Nat.le_add_left _ _
      · exact Nat.le_add_right _ _
  | lock | setCurRead | setBufferSize =>
      simp only [socketStep]
      split
      · rename_i n h
        simp [SocketSource.ahead, SocketLabel.length, h]
      · exact Nat.le_add_right _ _
  | test =>
      simp only [socketStep]
      split
      · rename_i h
        by_cases hmore : s.curRead < s.bufferSize <;>
          simp [SocketSource.ahead, SocketLabel.length, h, hmore]
      · exact Nat.le_add_right _ _

theorem readerRuns_ahead (labels : List (SocketLabel K.C K.S)) (s : SocketSource K.L) :
    (readerRuns K s labels).ahead ≤ s.ahead + receivedBy labels := by
  induction labels generalizing s with
  | nil => exact Nat.le_refl _
  | cons l labels ih =>
      rw [receivedBy_cons]
      cases hl : l.isReader with
      | false =>
          have hskip : readerRuns K s (l :: labels) = readerRuns K s labels := by
            simp [readerRuns, hl]
          have hrest := ih s
          rw [hskip]
          omega
      | true =>
          have htake : readerRuns K s (l :: labels) =
              readerRuns K (perform K.transport s l) labels := by
            simp [readerRuns, hl]
          have hfirst := perform_ahead hl s
          have hrest := ih (perform K.transport s l)
          rw [htake]
          omega

/-- Letting go of the lock receives nothing. -/
theorem letGo_ahead (s : SocketSource K.L) : (letGo K s).ahead ≤ s.ahead := by
  have hstep (l : SocketLabel K.C K.S) (hl : l.isReader) (hzero : l.length = 0)
      (s : SocketSource K.L) : (perform K.transport s l).ahead ≤ s.ahead := by
    simpa [hzero] using perform_ahead hl s
  unfold letGo
  split
  · exact (hstep .test rfl rfl _).trans ((hstep .setBufferSize rfl rfl _).trans
      (hstep .setCurRead rfl rfl s))
  · exact (hstep .test rfl rfl _).trans (hstep .setBufferSize rfl rfl s)
  · exact hstep .test rfl rfl s
  · exact Nat.le_refl _

/-- The accesses of `has_more` take nothing. -/
theorem perform_poll_ahead {l : SocketLabel K.C K.S} (hl : l.isReader = false)
    (hread : l ≠ .readByte) (s : SocketSource K.L) :
    (perform K.transport s l).ahead = s.ahead := by
  unfold perform
  cases l with
  | readByte => exact absurd rfl hread
  | enter | connect _ | recv _ _ | recvFail | test | wake | lock | setCurRead | setBufferSize =>
      cases hl
  | pollSize | loadCur | loadSize =>
      simp only [socketStep]
      split <;> rfl
  | signal =>
      simp only [socketStep]
      split
      · split <;> rfl
      · rfl

theorem socketHasMore_ahead (x : SocketTurn K.C K.S) (s : SocketSource K.L) :
    (socketHasMore K x s).2.ahead ≤ s.ahead + x.length := by
  have hload (b : Bool) (s : SocketSource K.L) :
      (perform K.transport s (if b then .loadCur else .loadSize)).ahead = s.ahead := by
    cases b <;> exact perform_poll_ahead rfl (by simp) s
  have hload' (b : Bool) (s : SocketSource K.L) :
      (perform K.transport s (if b then .loadSize else .loadCur)).ahead = s.ahead := by
    cases b <;> exact perform_poll_ahead rfl (by simp) s
  generalize hs₁ : perform K.transport (readerRuns K s x.first) .pollSize = s₁
  generalize hs₂ : perform K.transport (readerRuns K s₁ x.second)
    (if x.curFirst then .loadCur else .loadSize) = s₂
  generalize hs₃ : perform K.transport (readerRuns K s₂ x.third)
    (if x.curFirst then .loadSize else .loadCur) = s₃
  have h₁ : s₁.ahead ≤ s.ahead + receivedBy x.first := by
    rw [← hs₁, perform_poll_ahead rfl (by simp)]
    exact readerRuns_ahead x.first s
  have h₂ : s₂.ahead ≤ s₁.ahead + receivedBy x.second := by
    rw [← hs₂, hload]
    exact readerRuns_ahead x.second s₁
  have h₃ : s₃.ahead ≤ s₂.ahead + receivedBy x.third := by
    rw [← hs₃, hload']
    exact readerRuns_ahead x.third s₂
  have hlast : (perform K.transport (letGo K (readerRuns K s₃ x.atLock)) .signal).ahead ≤
      s₃.ahead + receivedBy x.atLock := by
    rw [perform_poll_ahead rfl (by simp)]
    exact (letGo_ahead _).trans (readerRuns_ahead x.atLock s₃)
  have hlength := x.length_eq
  simp only [socketHasMore, hs₁, hs₂, hs₃]
  split
  · dsimp only
    omega
  · dsimp only
    omega

/-- A byte that `has_more` announced is ahead no more once it is read. -/
theorem socketReadByte_ahead {s : SocketSource K.L} (hs : SocketInv s)
    (hready : s.pipeline = .ready) (x : SocketTurn K.C K.S) :
    (socketReadByte K x s).2.ahead < s.ahead + x.length := by
  have hrun := readerRuns_readerOnly hs x.atLock
  obtain ⟨hgo, hfree⟩ := letGo_readerOnly hrun.inv
  have hpipeline := hgo.pipeline.trans (hrun.pipeline.trans hready)
  have hless := (letGo_ahead _).trans (readerRuns_ahead x.atLock s)
  have hlength := x.length_eq
  simp only [socketReadByte]
  generalize letGo K (readerRuns K s x.atLock) = t at hgo hfree hpipeline hless
  have hpoll := hgo.inv.poll
  unfold PollInv at hpoll
  rw [hpipeline] at hpoll
  have hwaiting := Fresh.waiting hpoll hfree
  have hmore : t.curRead < t.bufferSize := by
    simpa only [Fresh, hwaiting] using hpoll
  have hahead : t.ahead = t.bufferSize - t.curRead := by
    simp [SocketSource.ahead, hwaiting]
  have hstep : socketStep K.transport t .readByte = some { t with
      pipeline := .idle
      curRead := t.curRead + 1
      returned := t.returned ++ [t.buffer t.curRead] } := by
    simp only [socketStep, hpipeline, hfree, if_true, if_neg (Nat.not_le.mpr hmore)]
  have hread : (perform K.transport t .readByte).ahead = t.bufferSize - (t.curRead + 1) := by
    simp [perform, hstep, SocketSource.ahead, hwaiting]
  rw [hread]
  omega

/-! ### Silent senders -/

/-- The reader has no chunk in its hands. -/
def ServerPc.settled : ServerPc → Bool
  | received _ | setCur _ | setSize _ => false
  | top | receiving | check | waiting => true

/-- What is left to be read of a settled reader is what it was. -/
structure SettledSince {L : Type} (s t : SocketSource L) : Prop where
  settled : t.reader.settled
  curRead : t.curRead = s.curRead
  bufferSize : t.bufferSize = s.bufferSize

/-- Without a chunk to receive or to publish a step moves neither cursor nor size. -/
theorem SettledSince.perform {s t : SocketSource K.L} (h : SettledSince s t)
    {l : SocketLabel K.C K.S} (hread : l ≠ .readByte) (hlength : l.length = 0) :
    SettledSince s (perform K.transport t l) := by
  have hsettled := h.settled
  unfold SecureGateway.perform
  cases l with
  | readByte => exact absurd rfl hread
  | recv chunk sender =>
      have hnil : chunk = [] := List.length_eq_zero_iff.mp hlength
      simpa [socketStep, hnil] using h
  | lock | setCurRead | setBufferSize =>
      simp only [socketStep]
      split
      · rename_i n hreader
        rw [hreader] at hsettled
        cases hsettled
      · exact h
  | enter | recvFail | wake =>
      simp only [socketStep]
      split
      · exact ⟨rfl, h.curRead, h.bufferSize⟩
      · exact h
  | connect outcome =>
      simp only [socketStep]
      split
      · refine ⟨?_, h.curRead, h.bufferSize⟩
        cases (K.transport.connect t.link outcome).2 <;> rfl
      · exact h
  | test =>
      simp only [socketStep]
      split
      · refine ⟨?_, h.curRead, h.bufferSize⟩
        by_cases hmore : t.curRead < t.bufferSize <;> simp [hmore, ServerPc.settled]
      · exact h
  | pollSize | loadCur | loadSize =>
      simp only [socketStep]
      split <;> exact ⟨hsettled, h.curRead, h.bufferSize⟩
  | signal =>
      simp only [socketStep]
      split
      · split <;> exact ⟨hsettled, h.curRead, h.bufferSize⟩
      · exact h

theorem SettledSince.readerRuns {s t : SocketSource K.L} (h : SettledSince s t)
    (labels : List (SocketLabel K.C K.S)) (hlength : receivedBy labels = 0) :
    SettledSince s (readerRuns K t labels) := by
  refine List.foldlRecOn _ _ h ?_
  intro u hu l hl
  obtain ⟨hmem, hreader⟩ := List.mem_filter.mp hl
  refine hu.perform ?_ ?_
  · rintro rfl
    cases hreader
  · exact Nat.le_zero.mp (hlength ▸ List.le_sum_of_mem (List.mem_map_of_mem hmem))

theorem SettledSince.letGo {s t : SocketSource K.L} (h : SettledSince s t) :
    SettledSince s (letGo K t) := by
  have hsettled := h.settled
  unfold SecureGateway.letGo
  cases hreader : t.reader with
  | received n | setCur n | setSize n =>
      rw [hreader] at hsettled
      cases hsettled
  | top | receiving | waiting => exact h
  | check => exact h.perform (by simp) rfl

/-- With both operands as they are, the comparison of `has_more` finds what is unread. -/
theorem comparison_ready {s : SocketSource K.L} (hinv : SocketInv s)
    (hs : s.pipeline = .comparing none none) (hsettled : SettledSince s s)
    (hmore : s.curRead < s.bufferSize) (curFirst : Bool) {labels : List (SocketLabel K.C K.S)}
    (hlength : receivedBy labels = 0) :
    let t := perform K.transport s (if curFirst then .loadCur else .loadSize)
    (perform K.transport (readerRuns K t labels)
      (if curFirst then .loadSize else .loadCur)).pipeline = .ready := by
  intro t
  have ht : SettledSince s t := hsettled.perform (by cases curFirst <;> simp)
    (by cases curFirst <;> rfl)
  have hrun := ht.readerRuns labels hlength
  have hpipeline : (readerRuns K t labels).pipeline = t.pipeline :=
    (readerRuns_readerOnly (hinv.perform _) labels).pipeline
  cases curFirst with
  | true =>
      have hloaded : t.pipeline = .comparing (some s.curRead) none := by
        simp [t, perform, socketStep, hs, afterLoad]
      simp [perform, socketStep, hpipeline, hloaded, afterLoad, hrun.bufferSize, hmore]
  | false =>
      have hloaded : t.pipeline = .comparing none (some s.bufferSize) := by
        simp [t, perform, socketStep, hs, afterLoad]
      simp [perform, socketStep, hpipeline, hloaded, afterLoad, hrun.curRead, hmore]

/-- While the sender is silent a poll says whether something is unread. -/
theorem socketHasMore_silent {s : SocketSource K.L} (hs : SocketInv s)
    (hidle : s.pipeline = .idle) (hsettled : s.reader.settled) {x : SocketTurn K.C K.S}
    (hlength : x.length = 0) :
    let r := socketHasMore K x s
    SettledSince s r.2 ∧ (r.1 = 0 → s.bufferSize ≤ s.curRead) := by
  intro r
  have hzero := x.length_eq.symm.trans hlength
  have hself : SettledSince s s := ⟨hsettled, rfl, rfl⟩
  generalize hs₁ : perform K.transport (readerRuns K s x.first) .pollSize = s₁
  generalize hs₂ : perform K.transport (readerRuns K s₁ x.second)
    (if x.curFirst then .loadCur else .loadSize) = s₂
  generalize hs₃ : perform K.transport (readerRuns K s₂ x.third)
    (if x.curFirst then .loadSize else .loadCur) = s₃
  have hfirst := hself.readerRuns x.first (by omega)
  have h₁ : SettledSince s s₁ := hs₁ ▸ hfirst.perform (by simp) rfl
  have hsecond := h₁.readerRuns x.second (by omega)
  have h₂ : SettledSince s s₂ := hs₂ ▸ hsecond.perform (by cases x.curFirst <;> simp)
    (by cases x.curFirst <;> rfl)
  have h₃ : SettledSince s s₃ := hs₃ ▸ (h₂.readerRuns x.third (by omega)).perform
    (by cases x.curFirst <;> simp) (by cases x.curFirst <;> rfl)
  have hlast := ((h₃.readerRuns x.atLock (by omega)).letGo).perform
    (l := .signal) (by simp) rfl
  have hready (hmore : s.curRead < s.bufferSize) : s₃.pipeline = .ready := by
    have hrun := readerRuns_readerOnly hs x.first
    have hcomparing : s₁.pipeline = .comparing none none := by
      have hpos : 0 < (readerRuns K s x.first).bufferSize := by
        rw [hfirst.bufferSize]
        exact Nat.zero_lt_of_lt hmore
      rw [← hs₁]
      simp [perform, socketStep, hrun.pipeline, hidle, hpos]
    have hrun₁ := readerRuns_readerOnly (hs₁ ▸ hrun.inv.perform .pollSize) x.second
    rw [← hs₃, ← hs₂]
    refine comparison_ready hrun₁.inv (hrun₁.pipeline.trans hcomparing)
      ⟨hsecond.settled, rfl, rfl⟩ ?_ x.curFirst (by omega)
    rw [hsecond.curRead, hsecond.bufferSize]
    exact hmore
  simp only [r, socketHasMore, hs₁, hs₂, hs₃]
  split
  · exact ⟨h₃, fun h => absurd h one_ne_zero⟩
  · rename_i hpipeline
    exact ⟨hlast, fun _ => Nat.le_of_not_lt fun hmore => hpipeline (hready hmore)⟩

/-- Once a settled reader has nothing left to be read, all that was received has been read. -/
theorem SocketInv.drained {L : Type} {s : SocketSource L} (hs : SocketInv s)
    (hsettled : s.reader.settled) (hempty : s.bufferSize ≤ s.curRead) :
    s.returned = s.chunks.flatten := by
  have hserver := hs.server
  unfold ServerInv at hserver
  cases hreader : s.reader with
  | received n | setCur n | setSize n =>
      rw [hreader] at hsettled
      cases hsettled
  | top | receiving =>
      rw [hreader] at hserver
      exact hserver.2
  | check | waiting =>
      rw [hreader] at hserver
      obtain ⟨done, chunk, hloaded, hsize, -, hreturned⟩ := hserver
      rw [hreturned, hloaded.chunks_eq, List.take_of_length_le (hsize ▸ hempty),
        List.flatten_append, List.flatten_singleton]

/-! ### The connections -/

namespace SocketLink

variable {a b : SocketLink K} {s t : SocketSource K.L} {N : Nat} {codec : MavlinkCodec}

/-- The object between two calls. -/
structure Sound (a : SocketLink K) : Prop where
  inv : ∀ s, a.socket = some s → SocketInv s
  idle : ∀ s, a.socket = some s → s.pipeline = .idle

/-- An object that is initialized, maybe just now. -/
theorem Sound.ready (ha : a.Sound) (h : a.ready = some s) :
    SocketInv s ∧ s.pipeline = .idle := by
  unfold SocketLink.ready at h
  cases hsocket : a.socket with
  | some s' =>
      rw [hsocket] at h
      cases h
      exact ⟨ha.inv s hsocket, ha.idle s hsocket⟩
  | none =>
      rw [hsocket] at h
      obtain ⟨buffer, -, rfl⟩ := Option.map_eq_some_iff.mp h
      exact ⟨SocketInv.start K.initial buffer, rfl⟩

theorem Sound.set (hsocket : b.socket = some s) (hinv : SocketInv s)
    (hidle : s.pipeline = .idle) : b.Sound := by
  constructor
  · intro t ht
    obtain rfl := Option.some.inj (hsocket.symm.trans ht)
    exact hinv
  · intro t ht
    obtain rfl := Option.some.inj (hsocket.symm.trans ht)
    exact hidle

/-- What the object has for the pipeline. -/
def unread (a : SocketLink K) : Nat :=
  match a.socket with
  | none => 0
  | some s => s.ahead

/-- What the object has for the pipeline, and what its reader may receive before call `N`. -/
def ahead (N : Nat) (a : SocketLink K) : Nat :=
  a.unread + ∑ n ∈ Finset.Ico a.calls N, (a.schedule n).length

/-- The reader receives nothing from call `N` on. -/
structure QuietFrom (N : Nat) (a : SocketLink K) : Prop extends Sound a where
  quiet : ∀ n, N ≤ n → (a.schedule n).length = 0

theorem unread_of_ready (h : a.ready = some s) : s.ahead = a.unread := by
  unfold SocketLink.ready at h
  unfold unread
  cases hsocket : a.socket with
  | some s' =>
      rw [hsocket] at h
      cases h
      rfl
  | none =>
      rw [hsocket] at h
      obtain ⟨buffer, -, rfl⟩ := Option.map_eq_some_iff.mp h
      rfl

/-- A call during which the reader runs leaves no more ahead than there was. -/
theorem QuietFrom.called (ha : a.QuietFrom N) (hs : a.ready = some s)
    (hless : t.ahead ≤ s.ahead + (a.schedule a.calls).length) (hinv : SocketInv t)
    (hidle : t.pipeline = .idle) (hsocket : b.socket = some t)
    (hcalls : b.calls = a.calls + 1) (hschedule : b.schedule = a.schedule) :
    b.QuietFrom N ∧ b.ahead N ≤ a.ahead N := by
  have hsum := sum_ahead_succ (N := N) ha.quiet a.calls
  have hunread := unread_of_ready hs
  refine ⟨⟨Sound.set hsocket hinv hidle, ?_⟩, ?_⟩
  · rw [hschedule]
    exact ha.quiet
  · have hb : b.unread = t.ahead := by
      simp [unread, hsocket]
    rw [ahead, ahead, hschedule, hcalls, hb]
    omega

/-- A call that fails to initialize the object. -/
theorem QuietFrom.failed (ha : a.QuietFrom N) (hsocket : b.socket = a.socket)
    (hcalls : b.calls = a.calls + 1) (hschedule : b.schedule = a.schedule) :
    b.QuietFrom N ∧ b.ahead N ≤ a.ahead N := by
  have hsum := sum_ahead_succ (N := N) ha.quiet a.calls
  refine ⟨⟨⟨?_, ?_⟩, ?_⟩, ?_⟩
  · rw [hsocket]
    exact ha.inv
  · rw [hsocket]
    exact ha.idle
  · rw [hschedule]
    exact ha.quiet
  · have hb : b.unread = a.unread := by
      simp [unread, hsocket]
    rw [ahead, ahead, hschedule, hcalls, hb]
    omega

theorem ops_exhausts (codec : MavlinkCodec) (N : Nat) :
    (ops codec : LinkOps (SocketLink K)).Exhausts (QuietFrom N) (ahead N) where
  silent a ha hnone := by
    simp only [ops, hasMore] at hnone ⊢
    cases hready : a.ready with
    | none => exact ha.failed rfl rfl rfl
    | some s =>
        rw [hready] at hnone
        obtain ⟨hs, hidle⟩ := ha.ready hready
        obtain ⟨hinv, -, hpipeline⟩ := socketHasMore_spec hs hidle (a.schedule a.calls)
        rw [if_pos hnone] at hpipeline
        exact ha.called hready (socketHasMore_ahead _ s) hinv hpipeline rfl rfl rfl
  read a ha hsome := by
    simp only [ops, hasMore] at hsome ⊢
    cases hready : a.ready with
    | none =>
        rw [hready] at hsome
        exact absurd rfl hsome
    | some s =>
        rw [hready] at hsome
        obtain ⟨hs, hidle⟩ := ha.ready hready
        obtain ⟨hinv, -, hpipeline⟩ := socketHasMore_spec hs hidle (a.schedule a.calls)
        rw [if_neg hsome] at hpipeline
        have hpolled := socketHasMore_ahead (a.schedule a.calls) s
        have hread := socketReadByte_ahead hinv hpipeline (a.schedule (a.calls + 1))
        obtain ⟨hinv', -, hidle'⟩ :=
          socketReadByte_spec hinv hpipeline (a.schedule (a.calls + 1))
        have hunread := unread_of_ready hready
        have hsum := sum_ahead_succ (N := N) ha.quiet a.calls
        have hsum' := sum_ahead_succ (N := N) ha.quiet (a.calls + 1)
        refine ⟨⟨Sound.set rfl hinv' hidle', ha.quiet⟩, ?_⟩
        simp only [ahead, unread, SocketLink.readByte] at hunread ⊢
        omega
  route a msg ha := by
    simp only [ops, routeTo]
    cases hready : a.ready with
    | none => exact ha.failed rfl rfl rfl
    | some s =>
        obtain ⟨hs, hidle⟩ := ha.ready hready
        have hfirst := readerRuns_readerOnly hs (a.schedule a.calls).first
        have hsecond := readerRuns_readerOnly hfirst.inv (a.schedule a.calls).second
        have hlength := (a.schedule a.calls).length_eq
        have hless := readerRuns_ahead (a.schedule a.calls).first s
        have hless' := readerRuns_ahead (a.schedule a.calls).second
          (readerRuns K s (a.schedule a.calls).first)
        simp only []
        split
        · exact ha.called hready (by omega) hsecond.inv
            (hsecond.pipeline.trans (hfirst.pipeline.trans hidle)) rfl rfl rfl
        · exact ha.called hready (by omega) hfirst.inv (hfirst.pipeline.trans hidle) rfl rfl rfl

/-- The sender is silent from the present call on, and the reader has no chunk in its hands. -/
structure Silent (a : SocketLink K) : Prop extends Sound a where
  settled : ∀ s, a.socket = some s → s.reader.settled
  quiet : ∀ n, a.calls ≤ n → (a.schedule n).length = 0

/-- Nothing is left to be read. -/
def Empty (a : SocketLink K) : Prop := ∀ s, a.socket = some s → s.bufferSize ≤ s.curRead

theorem Silent.ready (ha : a.Silent) (h : a.ready = some s) :
    s.reader.settled ∧ (a.Empty → s.bufferSize ≤ s.curRead) := by
  unfold SocketLink.ready at h
  cases hsocket : a.socket with
  | some s' =>
      rw [hsocket] at h
      cases h
      exact ⟨ha.settled s hsocket, fun hempty => hempty s hsocket⟩
  | none =>
      rw [hsocket] at h
      obtain ⟨buffer, -, rfl⟩ := Option.map_eq_some_iff.mp h
      exact ⟨rfl, fun _ => Nat.le_refl 0⟩

theorem Silent.set (ha : a.Silent) (hinv : SocketInv t) (hidle : t.pipeline = .idle)
    (hsettled : t.reader.settled) (hsocket : b.socket = some t) (hcalls : a.calls ≤ b.calls)
    (hschedule : b.schedule = a.schedule) : b.Silent where
  toSound := Sound.set hsocket hinv hidle
  settled u hu := by
    obtain rfl := Option.some.inj (hsocket.symm.trans hu)
    exact hsettled
  quiet n hn := by
    rw [hschedule]
    exact ha.quiet n (hcalls.trans hn)

theorem Silent.failed (ha : a.Silent) (hsocket : b.socket = a.socket) (hcalls : a.calls ≤ b.calls)
    (hschedule : b.schedule = a.schedule) : b.Silent := by
  refine ⟨⟨?_, ?_⟩, ?_, ?_⟩
  · rw [hsocket]
    exact ha.inv
  · rw [hsocket]
    exact ha.idle
  · rw [hsocket]
    exact ha.settled
  · intro n hn
    rw [hschedule]
    exact ha.quiet n (hcalls.trans hn)

/-- Reading a byte leaves the reader settled. -/
theorem socketReadByte_settled {x : SocketTurn K.C K.S} (hsettled : s.reader.settled)
    (hlength : x.length = 0) : (socketReadByte K x s).2.reader.settled := by
  have hself : SettledSince s s := ⟨hsettled, rfl, rfl⟩
  have hzero := x.length_eq.symm.trans hlength
  have hgo := (hself.readerRuns x.atLock (by omega)).letGo.settled
  simp only [socketReadByte, perform, socketStep]
  split
  · split
    · split <;> exact hgo
    · exact hgo
  · exact hgo

theorem ops_empties (codec : MavlinkCodec) :
    (ops codec : LinkOps (SocketLink K)).Empties Silent Empty where
  silent a ha hnone := by
    simp only [ops, hasMore] at hnone ⊢
    cases hready : a.ready with
    | none =>
        refine ⟨ha.failed rfl (Nat.le_succ _) rfl, ?_⟩
        intro s hs
        have hsome : a.ready = some s := by
          rw [SocketLink.ready, show a.socket = some s from hs]
        rw [hready] at hsome
        cases hsome
    | some s =>
        rw [hready] at hnone
        obtain ⟨hs, hidle⟩ := ha.toSound.ready hready
        obtain ⟨hinv, -, hpipeline⟩ := socketHasMore_spec hs hidle (a.schedule a.calls)
        rw [if_pos hnone] at hpipeline
        obtain ⟨hsame, hempty⟩ := socketHasMore_silent hs hidle (ha.ready hready).1
          (ha.quiet a.calls (Nat.le_refl _))
        refine ⟨ha.set hinv hpipeline hsame.settled rfl (Nat.le_succ _) rfl, ?_⟩
        intro u hu
        obtain rfl := Option.some.inj hu
        rw [hsame.bufferSize, hsame.curRead]
        exact hempty hnone
  read a ha hsome := by
    simp only [ops, hasMore] at hsome ⊢
    cases hready : a.ready with
    | none =>
        rw [hready] at hsome
        exact absurd rfl hsome
    | some s =>
        rw [hready] at hsome
        obtain ⟨hs, hidle⟩ := ha.toSound.ready hready
        obtain ⟨hinv, -, hpipeline⟩ := socketHasMore_spec hs hidle (a.schedule a.calls)
        rw [if_neg hsome] at hpipeline
        obtain ⟨hsame, -⟩ := socketHasMore_silent hs hidle (ha.ready hready).1
          (ha.quiet a.calls (Nat.le_refl _))
        obtain ⟨hinv', -, hidle'⟩ :=
          socketReadByte_spec hinv hpipeline (a.schedule (a.calls + 1))
        have hsettled := socketReadByte_settled hsame.settled
          (ha.quiet (a.calls + 1) (Nat.le_succ _))
        exact ha.set hinv' hidle' hsettled rfl (by simp [SocketLink.readByte]; omega) rfl
  route a msg ha := by
    simp only [ops, routeTo]
    cases hready : a.ready with
    | none => exact ⟨ha.failed rfl (Nat.le_succ _) rfl, id⟩
    | some s =>
        obtain ⟨hs, hidle⟩ := ha.toSound.ready hready
        obtain ⟨hsettled, hempty⟩ := ha.ready hready
        have hzero := (a.schedule a.calls).length_eq.symm.trans
          (ha.quiet a.calls (Nat.le_refl _))
        have hself : SettledSince s s := ⟨hsettled, rfl, rfl⟩
        have hfirst := hself.readerRuns (a.schedule a.calls).first (by omega)
        have hsecond := hfirst.readerRuns (a.schedule a.calls).second (by omega)
        have hinv := readerRuns_readerOnly hs (a.schedule a.calls).first
        have hinv' := readerRuns_readerOnly hinv.inv (a.schedule a.calls).second
        have hkept {t : SocketSource K.L} {b : SocketLink K} (ht : SettledSince s t)
            (hb : b.socket = some t) (hbefore : a.Empty) : b.Empty := by
          intro u hu
          obtain rfl := Option.some.inj (hb.symm.trans hu)
          rw [ht.bufferSize, ht.curRead]
          exact hempty hbefore
        simp only []
        split
        · exact ⟨ha.set hinv'.inv (hinv'.pipeline.trans (hinv.pipeline.trans hidle))
            hsecond.settled rfl (Nat.le_succ _) rfl, hkept hsecond rfl⟩
        · exact ⟨ha.set hinv.inv (hinv.pipeline.trans hidle) hfirst.settled rfl
            (Nat.le_succ _) rfl, hkept hfirst rfl⟩

theorem hasMore_schedule (a : SocketLink K) : a.hasMore.2.schedule = a.schedule := by
  unfold hasMore
  split <;> rfl

theorem readByte_schedule (a : SocketLink K) : a.readByte.2.schedule = a.schedule := by
  unfold readByte
  split <;> rfl

theorem routeTo_schedule (codec : MavlinkCodec) (msg : MavlinkMessage) (a : SocketLink K) :
    (routeTo codec msg a).schedule = a.schedule := by
  unfold routeTo
  split
  · rfl
  · simp only []
    split <;> rfl

end SocketLink

/-- What is kept of a connection that meets a schedule. -/
structure SocketLink.KeptWith (codec : MavlinkCodec) (schedule : Nat → SocketTurn K.C K.S)
    (a : SocketLink K) (bytes : List UInt8) (msgs : List MavlinkMessage) : Prop
    extends Kept codec a bytes msgs where
  schedule : a.schedule = schedule

theorem socketOps_lawful_with (codec : MavlinkCodec) (schedule : Nat → SocketTurn K.C K.S) :
    (SocketLink.ops codec : LinkOps (SocketLink K)).Lawful
      (SocketLink.KeptWith codec schedule) where
  silent a bytes msgs ha hnone :=
    ⟨(socketOps_lawful codec).silent a bytes msgs ha.toKept hnone,
      (SocketLink.hasMore_schedule a).trans ha.schedule⟩
  read a bytes msgs ha hsome :=
    ⟨(socketOps_lawful codec).read a bytes msgs ha.toKept hsome,
      (SocketLink.readByte_schedule _).trans
        ((SocketLink.hasMore_schedule a).trans ha.schedule)⟩
  route a bytes msgs msg ha :=
    ⟨(socketOps_lawful codec).route a bytes msgs msg ha.toKept,
      (SocketLink.routeTo_schedule codec msg a).trans ha.schedule⟩

/-! ### The gateway -/

/-- The gateway over threaded sockets empties its connections: a round during which the senders
are silent, and that finds no reader thread with a chunk in its hands, leaves everything read
that the reader threads of the connected slots ever received. If the reader threads receive
finitely many bytes in all, a run with fuel for these returns. -/
theorem socket_drains {ι G T : Type} [DecidableEq ι] (kind : ι → SocketKind)
    (codec : MavlinkCodec)
    {securityPolicyInit : SecurityPolicyMgmt → Except Fault SecurityPolicyMgmt}
    {prior initial p : Pipeline (Links (fun l => SocketLink (kind l)) T)}
    {setup : List (LinkSetup ι T)}
    (hinit : pipelineInit securityPolicyInit prior = .ok initial)
    (hsetup : configure initial
      (setup.map (LinkSetup.op fun _ => SocketLink.ops codec)) = .ok p)
    (hops : p.OpsKeepRouting)
    (hverdict : ∀ policy ∈ p.policies.policies, policy.VerdictIgnoresAttr)
    {env : Env (Links (fun l => SocketLink (kind l)) T) G}
    (hclock : ∀ world, (env.timeUs world).2.link = world.link)
    (inits : ι → Nat → Option (Nat → UInt8))
    (schedule : ∀ l, Nat → SocketTurn (kind l).C (kind l).S) (rest : T) (parser : G)
    (actions : List Action) :
    let start : Machine (Links (fun l => SocketLink (kind l)) T) G :=
      Machine.start p ⟨fun l => .start (inits l) (schedule l), rest⟩ parser
    let w := wiring setup
    (∀ m, runActions env start actions = .ok m →
      (∀ l n, (m.world.link l).calls ≤ n → (schedule l n).length = 0) →
      (∀ l s, (m.world.link l).socket = some s → s.reader.settled) →
      ∀ fuel m', pipelineSpin env fuel m = .ok m' →
        (∀ turn ∈ m'.log, turn.calls.map Prod.fst = turn.expected p) ∧
        ∀ i l, (p.sources i).isConnected → w.source i = some l →
          ∀ s, (m'.world.link l).socket = some s → readFrom w l m'.log = s.chunks.flatten) ∧
    ∀ N, (∀ l n, N ≤ n → (schedule l n).length = 0) →
      (∀ fuel, .spin fuel ∈ actions → ∀ l, ∑ n ∈ Finset.range N, (schedule l n).length < fuel) →
      ∃ m, runActions env start actions = .ok m := by
  intro start w
  have hconf := configure_configured (pipelineInit_configured hinit) hsetup
  have hw : Wired (fun l => SocketLink.ops (K := kind l) codec) w p :=
    configure_wired (pipelineInit_wired hinit) hsetup
  have hlawful (l : ι) := socketOps_lawful_with (K := kind l) codec (schedule l)
  have hstart (l : ι) : (start.world.link l).KeptWith codec (schedule l) [] [] := by
    refine ⟨⟨fun _ => rfl, ?_, ?_, ?_, List.Forall₂.nil, rfl⟩, rfl⟩
    · intro s hs
      cases hs
    · intro s hs
      cases hs
    · intro s hs
      cases hs
  have hledger : Ledger w (fun l => SocketLink.KeptWith codec (schedule l)) p start :=
    ⟨mediated_start p _ parser, hstart⟩
  refine ⟨?_, ?_⟩
  · intro m hrun hquiet hsettled fuel m' hround
    have hinv := ledger_readInvariant hlawful hw hconf hops hverdict hclock
    have hm := (hinv.runActions ledger_flagInvariant hledger actions).inv
    rw [hrun, finalMachine_ok] at hm
    have hsilent (l : ι) : (m.world.link l).Silent := by
      refine ⟨⟨(hm.links l).inv, (hm.links l).idle⟩, hsettled l, ?_⟩
      rw [(hm.links l).schedule]
      exact hquiet l
    obtain ⟨hm', hsilent', hempty⟩ := round_empties hlawful hw hconf hops hverdict hclock
      (fun l => SocketLink.ops_empties (K := kind l) codec) hm hsilent hround
    refine ⟨fun turn hturn => (hm'.log turn hturn).calls, ?_⟩
    intro i l hconn hl s hs
    rw [← (hm'.links l).returned s hs]
    exact ((hm'.links l).inv s hs).drained ((hsilent' l).settled s hs)
      (hempty i l hconn hl s hs)
  · intro N hquiet hfuel
    have hwithin : start.world.Each (Within (fun l => SocketLink.QuietFrom (K := kind l) N)
        (fun l => SocketLink.ahead N)
        fun l => ∑ n ∈ Finset.range N, (schedule l n).length) := by
      intro l
      refine ⟨⟨⟨(hstart l).inv, (hstart l).idle⟩, hquiet l⟩, ?_⟩
      change 0 + ∑ n ∈ Finset.Ico 0 N, (schedule l n).length ≤ _
      rw [Nat.zero_add, Nat.Ico_zero_eq_range]
    obtain ⟨m, hrun, -⟩ := runActions_returns hlawful hw hconf hops hverdict hclock
      (fun l => SocketLink.ops_exhausts (K := kind l) codec N) hfuel hledger hwithin
    exact ⟨m, hrun⟩

/-- A legacy client sends a heartbeat at once, the vehicle a byte while it is routed. -/
def lateSchedule (vmc : Bool) : Nat → SocketTurn Empty Nat :=
  if vmc then datagramAt 1 [0] 7 else datagramAt 0 heartbeat 9

def lateStart : Machine (Links (fun _ : Bool => SocketLink (udpKind Nat 0)) Unit)
    (Nat → List UInt8) :=
  Machine.start simPipeline ⟨fun l => .start (fun _ => some fun _ => 0) (lateSchedule l), ()⟩
    fun _ => []

theorem length_datagramAt {n call : Nat} (h : n < call) (chunk : List UInt8) (sender : Nat) :
    (datagramAt n chunk sender call).length = 0 := by
  simp [datagramAt, SocketTurn.length, SocketTurn.labels, Nat.ne_of_gt h]

/-- The late byte is left over by the first round and read in the second. -/
theorem socket_drains_late :
    ∃ m m', runActions simEnv lateStart [.spin 20] = .ok m ∧
      readFrom (wiring simSetup) true m.log = [] ∧
      pipelineSpin simEnv 20 m = .ok m' ∧ readFrom (wiring simSetup) true m'.log = [0] := by
  have hclock : ∀ world, (simEnv.timeUs world).2.link = world.link := fun _ => rfl
  have htotal (fuel : Nat) (hmem : Action.spin fuel ∈ [Action.spin 20, .spin 20]) (vmc : Bool) :
      ∑ n ∈ Finset.range 2, (lateSchedule vmc n).length < fuel := by
    obtain rfl : fuel = 20 := by simpa using hmem
    cases vmc <;> decide
  have hquiet (vmc : Bool) (n : Nat) (hn : 2 ≤ n) : (lateSchedule vmc n).length = 0 := by
    cases vmc with
    | false => exact length_datagramAt (Nat.lt_of_lt_of_le Nat.zero_lt_two hn) heartbeat 9
    | true => exact length_datagramAt hn [0] 7
  obtain ⟨-, hreturns⟩ := socket_drains (fun _ : Bool => udpKind Nat 0) wireCodec
    (pipelineInit_shipped wireCodec) sim_setup simPipeline_opsKeepRouting
    (shippedPolicies_verdictIgnoresAttr wireCodec) hclock (fun _ _ => some fun _ => 0)
    lateSchedule () (fun _ => []) [.spin 20, .spin 20]
  obtain ⟨hempties, -⟩ := socket_drains (fun _ : Bool => udpKind Nat 0) wireCodec
    (pipelineInit_shipped wireCodec) sim_setup simPipeline_opsKeepRouting
    (shippedPolicies_verdictIgnoresAttr wireCodec) hclock (fun _ _ => some fun _ => 0)
    lateSchedule () (fun _ => []) [.spin 20]
  obtain ⟨m', hrun⟩ := hreturns 2 hquiet htotal
  have hboth := hrun
  simp only [runActions, List.foldlM_cons, List.foldlM_nil] at hboth
  obtain ⟨m, hfirst, hrest⟩ := bind_eq_ok_iff.mp hboth
  obtain ⟨m₁, hround, hend⟩ := bind_eq_ok_iff.mp hrest
  cases hend
  have hone : runActions simEnv lateStart [.spin 20] = .ok m := by
    simp only [runActions, List.foldlM_cons, List.foldlM_nil]
    exact bind_eq_ok_iff.mpr ⟨m, hfirst, rfl⟩
  have hm := congrArg finalMachine hone
  have hm' := congrArg finalMachine hrun
  rw [finalMachine_ok] at hm hm'
  have hcalls (vmc : Bool) : 2 ≤ (m.world.link vmc).calls := by
    rw [← hm]
    cases vmc <;> decide +kernel
  have hreader (vmc : Bool) :
      (m.world.link vmc).socket.all fun s => s.reader.settled := by
    rw [← hm]
    cases vmc <;> decide +kernel
  have hlate (vmc : Bool) (n : Nat) (hn : (m.world.link vmc).calls ≤ n) :
      (lateSchedule vmc n).length = 0 := hquiet vmc n ((hcalls vmc).trans hn)
  have hsettled (vmc : Bool) (s : SocketSource (UdpLink Nat))
      (hs : (m.world.link vmc).socket = some s) : s.reader.settled := by
    have hall := hreader vmc
    rw [hs] at hall
    exact hall
  obtain ⟨-, hread⟩ := hempties m hone hlate hsettled 20 m' hround
  have hchunks : (m'.world.link true).socket.map SocketSource.chunks = some [[0]] := by
    rw [← hm']
    decide +kernel
  obtain ⟨s, hs, hone'⟩ := Option.map_eq_some_iff.mp hchunks
  refine ⟨m, m', hone, ?_, hround, ?_⟩
  · rw [← hm]
    decide +kernel
  · rw [hread ⟨SourceType.vmc.id, by decide⟩ true (by decide) (by decide) s hs, hone']
    rfl

end SecureGateway
