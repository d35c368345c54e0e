import Mathlib.Data.List.Infix
import SecureGateway.Library.Run

/-!
# Threaded socket sources

The reader threads of `source_tcp.c`, `source_tcpout.c` and `source_udp.c` hand one
buffer over to the pipeline: a chunk is received without the lock, published under it,
and the reader waits until it has been read. The pipeline polls without the lock.

## Implementation notes

The three servers share their loop; what they do to the connection is a `Transport`.
The two assignments of a publish are two steps, and so are the reads of `has_more`. A
section of the pipeline under the lock is one step, taken while the reader does not
hold the lock. A waiting reader may wake at any time, signalled or not. The ghost
fields note the chunks received, the bytes returned and how many of them were filler.
-/

namespace SecureGateway

open Library

/-- What a server does to its link `L`: whether it may receive, the outcome `C` of an
attempt to connect, a failed `recv`, and a chunk from a sender `A`. -/
structure Transport (L C A : Type) where
  connected : L → Bool
  connect : L → C → L × Bool
  dropped : L → L
  received : L → A → L

/-- The descriptor `tcp_server` of `source_tcp.c` tests. -/
structure TcpLink where
  connection : Int

/-- `tcp_accept_client`; the outcome is what `accept` returns. -/
def tcpTransport : Transport TcpLink Int Unit where
  connected link := link.connection != -1
  connect _ connection := (⟨connection⟩, connection != -1)
  dropped _ := ⟨-1⟩
  received link _ := link

/-- The descriptor `tcp_server` of `source_tcpout.c` tests. -/
structure TcpoutLink where
  fd : Int

/-- `tcp_connect_to`; the outcome is the socket and whether the calls after it succeed. -/
def tcpoutTransport : Transport TcpoutLink (Int × Bool) Unit where
  connected link := link.fd != -1
  connect _ outcome := (⟨outcome.1⟩, outcome.1 != -1 && outcome.2)
  dropped _ := ⟨-1⟩
  received link _ := link

/-- The client latch of `udp_server`, for addresses `A`. -/
structure UdpLink (A : Type) where
  hasClient : Bool
  cltAddr : A

def udpTransport (A : Type) : Transport (UdpLink A) Empty A where
  connected _ := true
  connect _ outcome := nomatch outcome
  dropped link := { link with hasClient := false }
  received link clt :=
    if link.hasClient then link else { hasClient := true, cltAddr := clt }

/-- `sizeof(buffer)`. -/
def socketBufferSize : Nat := 4096

/-- Where the reader thread stands; `n` is the return value of `recv`. -/
inductive ServerPc
  | top
  | receiving
  | received (n : Nat)
  | setCur (n : Nat)
  | setSize (n : Nat)
  | check
  | waiting
deriving DecidableEq

/-- Whether the lock is free as far as the reader is concerned. -/
def ServerPc.lockFree : ServerPc → Bool
  | setCur _ | setSize _ | check => false
  | _ => true

/-- Where the pipeline stands: within the comparison of `has_more` it has read
`cur_read` or `buffer_size` or neither; it is ready once `has_more` returned nonzero. -/
inductive PollPc
  | idle
  | comparing (cur size : Option Nat)
  | signalling
  | ready

/-- `has_more` once one more operand of its comparison is read. -/
def afterLoad : Option Nat → Option Nat → PollPc
  | some cur, some size => if cur < size then .ready else .signalling
  | cur, size => .comparing cur size

structure SocketSource (L : Type) where
  link : L
  buffer : Nat → UInt8
  curRead : Nat
  bufferSize : Nat
  reader : ServerPc
  pipeline : PollPc
  chunks : List (List UInt8)
  returned : List UInt8
  fillers : Nat

/-- A source that has just been initialized, its reader about to run. -/
def SocketSource.start {L : Type} (link : L) (buffer : Nat → UInt8) : SocketSource L where
  link := link
  buffer := buffer
  curRead := 0
  bufferSize := 0
  reader := .top
  pipeline := .idle
  chunks := []
  returned := []
  fillers := 0

/-- The steps of the reader, to `wake`, and of the pipeline. -/
inductive SocketLabel (C A : Type)
  | enter
  | connect (outcome : C)
  | recv (chunk : List UInt8) (sender : A)
  | recvFail
  | lock
  | setCurRead
  | setBufferSize
  | test
  | wake
  | pollSize
  | loadCur
  | loadSize
  | signal
  | readByte

variable {L C A : Type}

def socketStep (transport : Transport L C A) (s : SocketSource L) :
    SocketLabel C A → Option (SocketSource L)
  | .enter =>
      if s.reader = .top ∧ transport.connected s.link then some { s with reader := .receiving }
      else none
  | .connect outcome =>
      if s.reader = .top ∧ !transport.connected s.link then
        let (link, ok) := transport.connect s.link outcome
        some { s with link := link, reader := if ok then .receiving else .top }
      else none
  | .recv chunk sender =>
      if s.reader = .receiving ∧ chunk ≠ [] ∧ chunk.length ≤ socketBufferSize then
        some { s with
          link := transport.received s.link sender
          buffer := fun j => chunk.getD j (s.buffer j)
          reader := .received chunk.length
          chunks := s.chunks ++ [chunk] }
      else none
  | .recvFail =>
      if s.reader = .receiving then
        some { s with link := transport.dropped s.link, reader := .top }
      else none
  | .lock =>
      match s.reader with
      | .received n => some { s with reader := .setCur n }
      | _ => none
  | .setCurRead =>
      match s.reader with
      | .setCur n => some { s with curRead := 0, reader := .setSize n }
      | _ => none
  | .setBufferSize =>
      match s.reader with
      | .setSize n => some { s with bufferSize := n, reader := .check }
      | _ => none
  | .test =>
      if s.reader = .check then
        some { s with reader := if s.curRead < s.bufferSize then .waiting else .top }
      else none
  | .wake => if s.reader = .waiting then some { s with reader := .check } else none
  | .pollSize =>
      match s.pipeline with
      | .idle | .ready =>
          some { s with
            pipeline := if 0 < s.bufferSize then .comparing none none else .signalling }
      | _ => none
  | .loadCur =>
      match s.pipeline with
      | .comparing none size => some { s with pipeline := afterLoad (some s.curRead) size }
      | _ => none
  | .loadSize =>
      match s.pipeline with
      | .comparing cur none => some { s with pipeline := afterLoad cur (some s.bufferSize) }
      | _ => none
  | .signal =>
      match s.pipeline with
      | .signalling => if s.reader.lockFree then some { s with pipeline := .idle } else none
      | _ => none
  | .readByte =>
      match s.pipeline with
      | .ready =>
          if s.reader.lockFree then
            if s.bufferSize ≤ s.curRead then
              some { s with
                pipeline := .idle
                returned := s.returned ++ [0]
                fillers := s.fillers + 1 }
            else
              some { s with
                pipeline := .idle
                curRead := s.curRead + 1
                returned := s.returned ++ [s.buffer s.curRead] }
          else none
      | _ => none

/-! ### The hand-over -/

/-- The last chunk received is in the buffer. -/
structure Loaded (buffer : Nat → UInt8) (chunks done : List (List UInt8))
    (chunk : List UInt8) : Prop where
  chunks_eq : chunks = done ++ [chunk]
  nonempty : chunk ≠ []
  buffer_eq : ∀ j (h : j < chunk.length), buffer j = chunk[j]

/-- What the reader has established at each point of its loop. -/
def ServerInv (s : SocketSource L) : Prop :=
  match s.reader with
  | .top | .receiving => s.bufferSize ≤ s.curRead ∧ s.returned = s.chunks.flatten
  | .received n | .setCur n => s.bufferSize ≤ s.curRead ∧
      ∃ done chunk, Loaded s.buffer s.chunks done chunk ∧ n = chunk.length ∧
        s.returned = done.flatten
  | .setSize n => s.curRead = 0 ∧
      ∃ done chunk, Loaded s.buffer s.chunks done chunk ∧ n = chunk.length ∧
        s.returned = done.flatten
  | .check | .waiting =>
      ∃ done chunk, Loaded s.buffer s.chunks done chunk ∧ s.bufferSize = chunk.length ∧
        s.curRead ≤ chunk.length ∧ s.returned = done.flatten ++ chunk.take s.curRead

/-- Unread bytes are there, or will be by the time the reader lets go of the lock. -/
def Fresh (s : SocketSource L) : Prop :=
  match s.reader with
  | .setSize _ => True
  | .check | .waiting => s.curRead < s.bufferSize
  | _ => False

/-- What `has_more` has read is current unless fresh bytes have come in since. -/
def PollInv (s : SocketSource L) : Prop :=
  match s.pipeline with
  | .comparing cur size => Fresh s ∨
      (∀ c, cur = some c → c = s.curRead) ∧ ∀ b, size = some b → b = s.bufferSize
  | .ready => Fresh s
  | _ => True

/-- The invariant of the two threads. -/
structure SocketInv (s : SocketSource L) : Prop where
  server : ServerInv s
  poll : PollInv s
  noFiller : s.fillers = 0

/-- Unread bytes are only there while the reader waits for them to be read. -/
theorem fresh_of_lt {s : SocketSource L} (hs : ServerInv s) (h : s.curRead < s.bufferSize) :
    Fresh s := by
  unfold ServerInv at hs
  unfold Fresh
  cases hreader : s.reader <;> simp only [hreader] at hs ⊢
  case top | receiving | received | setCur => omega
  case check | waiting => exact h

/-- A step of the reader that keeps fresh bytes fresh and does not touch the fields
unless it makes them fresh keeps what the pipeline has read current. -/
theorem PollInv.of_reader {s t : SocketSource L} (hs : PollInv s)
    (hpipeline : t.pipeline = s.pipeline) (hfresh : Fresh s → Fresh t)
    (hfields : Fresh t ∨ t.curRead = s.curRead ∧ t.bufferSize = s.bufferSize) : PollInv t := by
  unfold PollInv at hs ⊢
  rw [hpipeline]
  cases hpc : s.pipeline with
  | idle => trivial
  | signalling => trivial
  | ready =>
      rw [hpc] at hs
      exact hfresh hs
  | comparing cur size =>
      rw [hpc] at hs
      rcases hs with hs | ⟨hcur, hsize⟩
      · exact Or.inl (hfresh hs)
      · rcases hfields with hnew | ⟨hcur', hsize'⟩
        · exact Or.inl hnew
        · rw [hcur', hsize']
          exact Or.inr ⟨hcur, hsize⟩

/-- Loading an operand keeps the comparison current, and a comparison that succeeds
has seen fresh bytes. -/
theorem pollInv_afterLoad {s : SocketSource L} (hs : ServerInv s) {cur size : Option Nat}
    (h : Fresh s ∨ (∀ c, cur = some c → c = s.curRead) ∧ ∀ b, size = some b → b = s.bufferSize) :
    PollInv { s with pipeline := afterLoad cur size } := by
  unfold PollInv
  cases cur with
  | none => exact h
  | some c =>
      cases size with
      | none => exact h
      | some b =>
          simp only [afterLoad]
          by_cases hlt : c < b
          · rw [if_pos hlt]
            rcases h with h | ⟨hc, hb⟩
            · exact h
            · rw [hc c rfl, hb b rfl] at hlt
              exact (fresh_of_lt hs hlt : Fresh s)
          · rw [if_neg hlt]
            trivial

/-- A step of the reader that only moves it on, to a point where what it has
established is as before and fresh bytes stay fresh, keeps the invariant. -/
theorem SocketInv.of_move {s t : SocketSource L} (hs : SocketInv s) (hserver : ServerInv t)
    (hpipeline : t.pipeline = s.pipeline) (hfresh : Fresh s → Fresh t)
    (hcur : t.curRead = s.curRead) (hsize : t.bufferSize = s.bufferSize)
    (hfillers : t.fillers = s.fillers) : SocketInv t where
  server := hserver
  poll := hs.poll.of_reader hpipeline hfresh (Or.inr ⟨hcur, hsize⟩)
  noFiller := hfillers.trans hs.noFiller

/-- What the reader has established where it stands. -/
theorem ServerInv.at_reader {s : SocketSource L} (hs : ServerInv s) {pc : ServerPc}
    (hpc : s.reader = pc) : ServerInv { s with reader := pc } := by
  rw [← hpc]
  exact hs

/-! ### Steps of the reader -/

section Steps

variable {transport : Transport L C A} {s t : SocketSource L}

theorem SocketInv.enter (hs : SocketInv s) (h : socketStep transport s .enter = some t) :
    SocketInv t := by
  obtain ⟨⟨hpc, -⟩, h⟩ := Option.ite_none_right_eq_some.mp h
  cases h
  have hserver := hs.server.at_reader hpc
  exact hs.of_move hserver rfl (by simp [Fresh, hpc]) rfl rfl rfl

/-- Connecting concerns the link only, whether or not it succeeds. -/
theorem SocketInv.connect (hs : SocketInv s) {outcome : C}
    (h : socketStep transport s (.connect outcome) = some t) : SocketInv t := by
  obtain ⟨⟨hpc, -⟩, h⟩ := Option.ite_none_right_eq_some.mp h
  cases h
  refine hs.of_move ?_ rfl (by simp [Fresh, hpc]) rfl rfl rfl
  have hserver := hs.server.at_reader hpc
  cases (transport.connect s.link outcome).2 <;> exact hserver

/-- A chunk is only received once all bytes before it have been returned. -/
theorem SocketInv.recv (hs : SocketInv s) {chunk : List UInt8} {sender : A}
    (h : socketStep transport s (.recv chunk sender) = some t) : SocketInv t := by
  obtain ⟨⟨hpc, hne, -⟩, h⟩ := Option.ite_none_right_eq_some.mp h
  cases h
  obtain ⟨hread, hreturned⟩ := hs.server.at_reader hpc
  refine hs.of_move ⟨hread, s.chunks, chunk, ⟨rfl, hne, ?_⟩, rfl, hreturned⟩ rfl
    (by simp [Fresh, hpc]) rfl rfl rfl
  intro j hj
  simp [List.getD_eq_getElem?_getD, hj]

theorem SocketInv.recvFail (hs : SocketInv s)
    (h : socketStep transport s .recvFail = some t) : SocketInv t := by
  obtain ⟨hpc, h⟩ := Option.ite_none_right_eq_some.mp h
  cases h
  have hserver := hs.server.at_reader hpc
  exact hs.of_move hserver rfl (by simp [Fresh, hpc]) rfl rfl rfl

theorem SocketInv.lock (hs : SocketInv s) (h : socketStep transport s .lock = some t) :
    SocketInv t := by
  simp only [socketStep] at h
  split at h
  · rename_i n hpc
    cases h
    have hserver := hs.server.at_reader hpc
    exact hs.of_move hserver rfl (by simp [Fresh, hpc]) rfl rfl rfl
  · cases h

/-- Between the two assignments of a publish the bytes count as fresh already. -/
theorem SocketInv.setCurRead (hs : SocketInv s)
    (h : socketStep transport s .setCurRead = some t) : SocketInv t := by
  simp only [socketStep] at h
  split at h
  · rename_i n hpc
    cases h
    obtain ⟨-, hloaded⟩ := hs.server.at_reader hpc
    exact ⟨⟨rfl, hloaded⟩, hs.poll.of_reader rfl (fun _ => trivial) (Or.inl trivial),
      hs.noFiller⟩
  · cases h

/-- Once the size is set a nonempty chunk is there to be read. -/
theorem SocketInv.setBufferSize (hs : SocketInv s)
    (h : socketStep transport s .setBufferSize = some t) : SocketInv t := by
  simp only [socketStep] at h
  split at h
  · rename_i n hpc
    cases h
    obtain ⟨hzero, done, chunk, hloaded, hn, hreturned⟩ := hs.server.at_reader hpc
    change s.curRead = 0 at hzero
    have hpos : 0 < n := by
      rw [hn]
      exact List.length_pos_iff.mpr hloaded.nonempty
    have hfresh : Fresh { s with bufferSize := n, reader := .check } := by
      change s.curRead < n
      omega
    refine ⟨⟨done, chunk, hloaded, hn, ?_, ?_⟩,
      hs.poll.of_reader rfl (fun _ => hfresh) (Or.inl hfresh), hs.noFiller⟩
    · change s.curRead ≤ chunk.length
      omega
    · change s.returned = done.flatten ++ chunk.take s.curRead
      rw [hzero, List.take_zero, List.append_nil]
      exact hreturned
  · cases h

/-- The reader goes back to `recv` only when the whole chunk has been returned. -/
theorem SocketInv.test (hs : SocketInv s) (h : socketStep transport s .test = some t) :
    SocketInv t := by
  obtain ⟨hpc, h⟩ := Option.ite_none_right_eq_some.mp h
  cases h
  have hserver := hs.server.at_reader hpc
  by_cases hmore : s.curRead < s.bufferSize
  · rw [if_pos hmore]
    exact hs.of_move hserver rfl (fun _ => hmore) rfl rfl rfl
  · rw [if_neg hmore]
    obtain ⟨done, chunk, hloaded, hsize, hle, hreturned⟩ := hserver
    refine hs.of_move ⟨Nat.le_of_not_lt hmore, ?_⟩ rfl ?_ rfl rfl rfl
    · have hall : chunk.length ≤ s.curRead := hsize ▸ Nat.le_of_not_lt hmore
      refine hreturned.trans ?_
      rw [hloaded.chunks_eq, List.take_of_length_le hall, List.flatten_append,
        List.flatten_singleton]
    · intro hfresh
      simp only [Fresh, hpc] at hfresh
      exact absurd hfresh hmore

theorem SocketInv.wake (hs : SocketInv s) (h : socketStep transport s .wake = some t) :
    SocketInv t := by
  obtain ⟨hpc, h⟩ := Option.ite_none_right_eq_some.mp h
  cases h
  have hserver := hs.server.at_reader hpc
  refine hs.of_move hserver rfl ?_ rfl rfl rfl
  simp only [Fresh, hpc]
  exact id

/-! ### Steps of the pipeline -/

theorem SocketInv.pollSize (hs : SocketInv s)
    (h : socketStep transport s .pollSize = some t) : SocketInv t := by
  have hpoll : PollInv { s with
      pipeline := if 0 < s.bufferSize then .comparing none none else .signalling } := by
    unfold PollInv
    by_cases hpos : 0 < s.bufferSize
    · simp [hpos]
    · simp [hpos]
  simp only [socketStep] at h
  split at h
  · cases h
    exact ⟨hs.server, hpoll, hs.noFiller⟩
  · cases h
    exact ⟨hs.server, hpoll, hs.noFiller⟩
  · cases h

theorem SocketInv.loadCur (hs : SocketInv s)
    (h : socketStep transport s .loadCur = some t) : SocketInv t := by
  have hpoll := hs.poll
  unfold PollInv at hpoll
  simp only [socketStep] at h
  split at h
  · rename_i size hpipeline
    cases h
    rw [hpipeline] at hpoll
    refine ⟨hs.server, pollInv_afterLoad hs.server ?_, hs.noFiller⟩
    exact hpoll.imp_right fun ⟨_, hsize⟩ => ⟨fun c hc => (Option.some.inj hc).symm, hsize⟩
  · cases h

theorem SocketInv.loadSize (hs : SocketInv s)
    (h : socketStep transport s .loadSize = some t) : SocketInv t := by
  have hpoll := hs.poll
  unfold PollInv at hpoll
  simp only [socketStep] at h
  split at h
  · rename_i cur hpipeline
    cases h
    rw [hpipeline] at hpoll
    refine ⟨hs.server, pollInv_afterLoad hs.server ?_, hs.noFiller⟩
    exact hpoll.imp_right fun ⟨hcur, _⟩ => ⟨hcur, fun b hb => (Option.some.inj hb).symm⟩
  · cases h

theorem SocketInv.signal (hs : SocketInv s)
    (h : socketStep transport s .signal = some t) : SocketInv t := by
  simp only [socketStep] at h
  split at h
  · split at h
    · cases h
      exact ⟨hs.server, trivial, hs.noFiller⟩
    · cases h
  · cases h

/-- Fresh bytes while the lock is free leave the reader only one place to be. -/
theorem Fresh.waiting (hs : Fresh s) (hfree : s.reader.lockFree) : s.reader = .waiting := by
  unfold Fresh at hs
  cases hreader : s.reader <;> simp_all [ServerPc.lockFree]

/-- A read that `has_more` announced finds the reader waiting and returns the next byte
of the chunk. -/
theorem SocketInv.readByte (hs : SocketInv s)
    (h : socketStep transport s .readByte = some t) : SocketInv t := by
  have hserver := hs.server
  have hpoll := hs.poll
  simp only [socketStep] at h
  split at h
  · rename_i hpipeline
    split at h
    · rename_i hfree
      unfold ServerInv at hserver
      unfold PollInv at hpoll
      rw [hpipeline] at hpoll
      have hwaiting := Fresh.waiting hpoll hfree
      have hmore : s.curRead < s.bufferSize := by
        simpa only [Fresh, hwaiting] using hpoll
      rw [hwaiting] at hserver
      obtain ⟨done, chunk, hloaded, hsize, hle, hreturned⟩ := hserver
      have hlt : s.curRead < chunk.length := hsize ▸ hmore
      rw [if_neg (Nat.not_le.mpr hmore)] at h
      cases h
      refine ⟨?_, trivial, hs.noFiller⟩
      unfold ServerInv
      rw [hwaiting]
      refine ⟨done, chunk, hloaded, hsize, hlt, ?_⟩
      calc
        s.returned ++ [s.buffer s.curRead]
            = done.flatten ++ (chunk.take s.curRead ++ [chunk[s.curRead]]) := by
          rw [hreturned, hloaded.buffer_eq _ hlt, List.append_assoc]
        _ = done.flatten ++ chunk.take (s.curRead + 1) := by
          rw [List.take_append_getElem hlt]
    · cases h
  · cases h

/-- Every step of the two threads keeps the invariant. -/
theorem SocketInv.step (hs : SocketInv s) {l : SocketLabel C A}
    (h : socketStep transport s l = some t) : SocketInv t := by
  cases l with
  | enter => exact hs.enter h
  | connect outcome => exact hs.connect h
  | recv chunk sender => exact hs.recv h
  | recvFail => exact hs.recvFail h
  | lock => exact hs.lock h
  | setCurRead => exact hs.setCurRead h
  | setBufferSize => exact hs.setBufferSize h
  | test => exact hs.test h
  | wake => exact hs.wake h
  | pollSize => exact hs.pollSize h
  | loadCur => exact hs.loadCur h
  | loadSize => exact hs.loadSize h
  | signal => exact hs.signal h
  | readByte => exact hs.readByte h

end Steps

theorem SocketInv.start (link : L) (buffer : Nat → UInt8) :
    SocketInv (SocketSource.start link buffer) :=
  ⟨⟨Nat.le_refl 0, rfl⟩, trivial, rfl⟩

/-! ### Delivery -/

/-- What the reader has received is handed over byte by byte, a chunk at a time. -/
structure Delivered (s : SocketSource L) : Prop where
  inOrder : s.returned <+: s.chunks.flatten
  noFiller : s.fillers = 0
  overwritesRead : s.reader = .receiving → s.returned = s.chunks.flatten
  oneOutstanding : s.chunks.dropLast.flatten <+: s.returned

/-- With only the last chunk outstanding, what is returned lies between the chunks
before it and all chunks. -/
theorem Loaded.between {buffer : Nat → UInt8} {chunks done : List (List UInt8)}
    {chunk : List UInt8} (h : Loaded buffer chunks done chunk) (k : Nat) :
    done.flatten ++ chunk.take k <+: chunks.flatten ∧
      chunks.dropLast.flatten <+: done.flatten ++ chunk.take k := by
  rw [h.chunks_eq, List.flatten_append, List.flatten_singleton, List.dropLast_concat]
  exact ⟨(List.prefix_append_right_inj _).mpr (List.take_prefix k chunk),
    List.prefix_append _ _⟩

theorem SocketInv.delivered {s : SocketSource L} (hs : SocketInv s) : Delivered s := by
  have hserver := hs.server
  unfold ServerInv at hserver
  have hbetween : s.returned <+: s.chunks.flatten ∧
      s.chunks.dropLast.flatten <+: s.returned := by
    cases hreader : s.reader <;> rw [hreader] at hserver
    case top | receiving =>
      rw [hserver.2]
      exact ⟨List.prefix_rfl, (List.dropLast_prefix s.chunks).flatten⟩
    case received | setCur | setSize =>
      obtain ⟨-, done, chunk, hloaded, -, hreturned⟩ := hserver
      simpa [hreturned] using hloaded.between 0
    case check | waiting =>
      obtain ⟨done, chunk, hloaded, -, -, hreturned⟩ := hserver
      rw [hreturned]
      exact hloaded.between s.curRead
  refine ⟨hbetween.1, hs.noFiller, ?_, hbetween.2⟩
  intro hreceiving
  rw [hreceiving] at hserver
  exact hserver.2

/-- Every run of a server's loop against the pipeline delivers. -/
theorem delivered_of_run (transport : Transport L C A) {link : L} {buffer : Nat → UInt8}
    {labels : List (SocketLabel C A)} {s : SocketSource L}
    (h : run (socketStep transport) (SocketSource.start link buffer) labels = some s) :
    Delivered s :=
  (run_invariant (socketStep transport) (fun _ _ _ hs hstep => hs.step hstep)
    (SocketInv.start link buffer) h).delivered

/-- The three threaded sources deliver every byte they receive once and in order, across
reconnects and in every interleaving with the pipeline. -/
theorem socketSources_delivered :
    (∀ (link : TcpLink) (buffer : Nat → UInt8) (labels : List (SocketLabel Int Unit))
        (s : SocketSource TcpLink),
      run (socketStep tcpTransport) (SocketSource.start link buffer) labels = some s →
        Delivered s) ∧
    (∀ (link : TcpoutLink) (buffer : Nat → UInt8)
        (labels : List (SocketLabel (Int × Bool) Unit)) (s : SocketSource TcpoutLink),
      run (socketStep tcpoutTransport) (SocketSource.start link buffer) labels = some s →
        Delivered s) ∧
    ∀ (Addr : Type) (link : UdpLink Addr) (buffer : Nat → UInt8)
        (labels : List (SocketLabel Empty Addr)) (s : SocketSource (UdpLink Addr)),
      run (socketStep (udpTransport Addr)) (SocketSource.start link buffer) labels = some s →
        Delivered s :=
  ⟨fun _ _ _ _ h => delivered_of_run tcpTransport h,
    fun _ _ _ _ h => delivered_of_run tcpoutTransport h,
    fun Addr _ _ _ _ h => delivered_of_run (udpTransport Addr) h⟩

/-- The pipeline polls between the two assignments of a publish, then reads a byte. -/
def pollWithinPublish (C A : Type) (sender : A) : List (SocketLabel C A) :=
  [.recv [1, 2] sender, .lock, .setCurRead, .pollSize, .setBufferSize, .test, .signal,
    .pollSize, .loadCur, .loadSize, .readByte]

/-- One byte out of each source; the outgoing one is left with a socket by a failed
attempt to connect. -/
theorem socketSources_delivered_one :
    (∃ s, run (socketStep tcpTransport) (SocketSource.start ⟨-1⟩ fun _ => 0)
        (.connect 5 :: pollWithinPublish Int Unit ()) = some s ∧
      s.returned = [1] ∧ Delivered s) ∧
    (∃ s, run (socketStep tcpoutTransport) (SocketSource.start ⟨-1⟩ fun _ => 0)
        (.connect (5, false) :: .enter :: pollWithinPublish (Int × Bool) Unit ()) = some s ∧
      s.returned = [1] ∧ Delivered s) ∧
    ∃ s, run (socketStep (udpTransport Nat)) (SocketSource.start ⟨false, 0⟩ fun _ => 0)
        (.enter :: pollWithinPublish Empty Nat 7) = some s ∧
      s.returned = [1] ∧ Delivered s := by
  refine ⟨⟨_, rfl, rfl, ?_⟩, ⟨_, rfl, rfl, ?_⟩, ⟨_, rfl, rfl, ?_⟩⟩
  · exact socketSources_delivered.1 ⟨-1⟩ (fun _ => 0)
      (.connect 5 :: pollWithinPublish Int Unit ()) _ rfl
  · exact socketSources_delivered.2.1 ⟨-1⟩ (fun _ => 0)
      (.connect (5, false) :: .enter :: pollWithinPublish (Int × Bool) Unit ()) _ rfl
  · exact socketSources_delivered.2.2 Nat ⟨false, 0⟩ (fun _ => 0)
      (.enter :: pollWithinPublish Empty Nat 7) _ rfl

end SecureGateway
