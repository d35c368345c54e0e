import Mathlib.Logic.Function.Basic
import SecureGateway.Tunnel

/-!
# The bridge and its connections

`TCPBridge` of `tcp_bridge.cc` joins two TCP adapters by two tunnels. The thread that
receives from an adapter also connects it, again and again, and closes it at the end of
the stream; the thread that sends to it belongs to the other tunnel and reads the same
`fd` twice, for the test and for the call.

## Implementation notes

A tunnel goes by the side of its source. Each access to `fd`, to a counter or to the
descriptors of the process is a step of its own, with the answer of the kernel in the
label; the kernel may answer anything that fits the descriptor. The pauses, the texts and
the lengths of the queues that the monitor prints are left out, and so are the destructors,
which `main` never reaches. The ghost fields note what every call of `recv` gave, what
became of every packet, and which descriptors nothing refers to any more.
-/

namespace SecureGateway

open Library

/-- `up_adapt` and `down_adapt`, and the tunnels from them. -/
inductive Side
  | up
  | down
deriving DecidableEq

def Side.other : Side → Side
  | up => down
  | down => up

@[simp] theorem Side.other_other (a : Side) : a.other.other = a := by
  cases a <;> rfl

theorem Side.other_ne (a : Side) : a.other ≠ a := by
  cases a <;> decide

/-- `adapter_metrics_t`. -/
structure AdapterMetrics where
  bytesSent : BitVec 64
  bytesReceived : BitVec 64
  packetsSent : BitVec 64
  packetsReceived : BitVec 64
deriving DecidableEq

def AdapterMetrics.zero : AdapterMetrics := ⟨0, 0, 0, 0⟩

/-- The counters since an earlier reading, as the monitor prints them. -/
def AdapterMetrics.since (now before : AdapterMetrics) : AdapterMetrics where
  bytesSent := now.bytesSent - before.bytesSent
  bytesReceived := now.bytesReceived - before.bytesReceived
  packetsSent := now.packetsSent - before.packetsSent
  packetsReceived := now.packetsReceived - before.packetsReceived

def AdapterMetrics.add (m n : AdapterMetrics) : AdapterMetrics where
  bytesSent := m.bytesSent + n.bytesSent
  bytesReceived := m.bytesReceived + n.bytesReceived
  packetsSent := m.packetsSent + n.packetsSent
  packetsReceived := m.packetsReceived + n.packetsReceived

/-- What `recv` gives: bytes, the end of the connection, or an error. -/
inductive RecvResult (B : Type)
  | data (packet : List B)
  | ended
  | failed

/-- What `do_recv` returns. -/
def RecvResult.rv {B : Type} : RecvResult B → Int
  | data packet => packet.length
  | ended => 0
  | failed => -1

def RecvResult.packets {B : Type} : RecvResult B → List (List B)
  | data packet => [packet]
  | _ => []

/-- Where the thread that receives from an adapter stands. -/
inductive ReceiverAt (B : Type)
  | testing
  | connecting
  | opened
  | receiving
  | closing
  | closed
  | countPacket (result : RecvResult B)
  | countBytes (result : RecvResult B)
  | returned (result : RecvResult B)

/-- Between `close` and the store of -1 the adapter names a descriptor it has given back. -/
def ReceiverAt.stale {B : Type} : ReceiverAt B → Bool
  | closed => true
  | _ => false

/-- The packet that was received and is not in the queue yet. -/
def ReceiverAt.packets {B : Type} : ReceiverAt B → List (List B)
  | countPacket result | countBytes result | returned result => result.packets
  | _ => []

/-- The result that `packets_received` does not count yet. -/
def ReceiverAt.owesPacket {B : Type} : ReceiverAt B → List (RecvResult B)
  | closing | closed => [.ended]
  | countPacket result => [result]
  | _ => []

/-- The result that `bytes_received` does not count yet. -/
def ReceiverAt.owesBytes {B : Type} : ReceiverAt B → List (RecvResult B)
  | countBytes result => [result]
  | at' => at'.owesPacket

/-- Where the thread that sends for a tunnel stands. -/
inductive SenderAt (B : Type)
  | taking
  | testing (packet : List B)
  | sending (packet : List B)
  | countPacket (packet : List B)
  | countBytes (packet : List B)
  | trimming

/-- The packet that was taken and not yet disposed of. -/
def SenderAt.packets {B : Type} : SenderAt B → List (List B)
  | testing packet | sending packet => [packet]
  | _ => []

/-- The packet that `packets_sent` does not count yet. -/
def SenderAt.owesPacket {B : Type} : SenderAt B → List (List B)
  | countPacket packet => [packet]
  | _ => []

/-- The packet that `bytes_sent` does not count yet. -/
def SenderAt.owesBytes {B : Type} : SenderAt B → List (List B)
  | countPacket packet | countBytes packet => [packet]
  | _ => []

/-- What became of a packet: the kernel took its first bytes, the kernel refused it, the
adapter was not connected, or the queue was purged. -/
inductive Fate
  | sent (len : Nat)
  | refused
  | swallowed
  | purged

structure Handled (B : Type) where
  packet : List B
  fate : Fate

def Handled.accepted {B : Type} (h : Handled B) : List B :=
  match h.fate with
  | .sent len => h.packet.take len
  | _ => []

/-- The packet was handed to the kernel. -/
def Handled.attempted {B : Type} (h : Handled B) : Bool :=
  match h.fate with
  | .sent _ | .refused => true
  | _ => false

/-- A socket of an adapter: the bytes that were received from it and sent to it. -/
structure Socket (B : Type) where
  got : List B
  sent : List B

/-- Where `Bridge::monitor` stands, with what it has read. -/
inductive MonitorAt
  | readUp
  | readDown (up : AdapterMetrics)
  | printing (up down : AdapterMetrics)

/-- The deltas of one line of the monitor. -/
structure MonitorLine where
  up : AdapterMetrics
  down : AdapterMetrics

structure Bridge (B : Type) where
  fd : Side → Option Nat
  metrics : Side → AdapterMetrics
  receiver : Side → ReceiverAt B
  sender : Side → SenderAt B
  queue : Side → List (List B)
  monitor : MonitorAt
  previousUp : AdapterMetrics
  previousDown : AdapterMetrics
  lines : List MonitorLine
  files : Nat → Option (Side × Nat)
  sockets : Side → List (Socket B)
  results : Side → List (RecvResult B)
  ledger : Side → List (Handled B)
  abandoned : List Nat

/-- `TCPBridge` after `start`: no adapter is connected. -/
def Bridge.start {B : Type} : Bridge B where
  fd _ := none
  metrics _ := .zero
  receiver _ := .testing
  sender _ := .taking
  queue _ := []
  monitor := .readUp
  previousUp := .zero
  previousDown := .zero
  lines := []
  files _ := none
  sockets _ := []
  results _ := []
  ledger _ := []
  abandoned := []

/-- What the kernel answers, where a step calls it. -/
inductive Answer (B : Type)
  | silent
  | socket (fd : Option Nat)
  | connect (ok : Bool)
  | recv (result : RecvResult B)
  | send (len : Option Nat)

inductive BridgeLabel (B : Type)
  | receiver (a : Side) (answer : Answer B)
  | sender (a : Side) (answer : Answer B)
  | monitor

variable {B : Type}

/-- The socket behind the descriptor of an adapter. -/
def Bridge.behind (s : Bridge B) (a : Side) : Option (Side × Nat) := (s.fd a).bind s.files

def Bridge.goReceiver (s : Bridge B) (a : Side) (at' : ReceiverAt B) : Bridge B :=
  { s with receiver := Function.update s.receiver a at' }

def Bridge.goSender (s : Bridge B) (a : Side) (at' : SenderAt B) : Bridge B :=
  { s with sender := Function.update s.sender a at' }

def Bridge.setFd (s : Bridge B) (a : Side) (fd : Option Nat) : Bridge B :=
  { s with fd := Function.update s.fd a fd }

def Bridge.countIn (s : Bridge B) (a : Side) (f : AdapterMetrics → AdapterMetrics) : Bridge B :=
  { s with metrics := Function.update s.metrics a (f (s.metrics a)) }

/-- A transfer on the `k`-th socket of an adapter. -/
def Bridge.onSocket (s : Bridge B) (place : Side × Nat) (f : Socket B → Socket B) : Bridge B :=
  { s with sockets := Function.update s.sockets place.1 ((s.sockets place.1).modify place.2 f) }

def Bridge.note (s : Bridge B) (a : Side) (result : RecvResult B) : Bridge B :=
  { s with results := Function.update s.results a (s.results a ++ [result]) }

def Bridge.settle (s : Bridge B) (a : Side) (handled : List (Handled B)) : Bridge B :=
  { s with ledger := Function.update s.ledger a (s.ledger a ++ handled) }

/-- One step of `receiver_thread`, through `Adapter::recv`, `connect` and `do_recv`. -/
def receiverStep (s : Bridge B) (a : Side) (answer : Answer B) : Option (Bridge B) :=
  match s.receiver a, answer with
  | .testing, .silent =>
      match s.fd a with
      | none => some (s.goReceiver a .connecting)
      | some _ => some (s.goReceiver a .receiving)
  | .connecting, .socket none => some ((s.setFd a none).goReceiver a .testing)
  | .connecting, .socket (some d) =>
      match s.files d with
      | some _ => none
      | none =>
          some { (s.setFd a (some d)).goReceiver a .opened with
            files := Function.update s.files d (some (a, (s.sockets a).length))
            sockets := Function.update s.sockets a (s.sockets a ++ [⟨[], []⟩]) }
  | .opened, .connect true => some (s.goReceiver a .testing)
  | .opened, .connect false =>
      -- the descriptor stays open and is forgotten
      some { (s.setFd a none).goReceiver a .testing with
        abandoned := s.abandoned ++ (s.fd a).toList }
  | .receiving, .recv .failed => some ((s.note a .failed).goReceiver a (.countPacket .failed))
  | .receiving, .recv .ended =>
      match s.behind a with
      | none => none
      | some _ => some ((s.note a .ended).goReceiver a .closing)
  | .receiving, .recv (.data packet) =>
      match s.behind a with
      | none => none
      | some place =>
          if 0 < packet.length ∧ packet.length ≤ packetSize then
            some (((s.note a (.data packet)).onSocket place fun x =>
              { x with got := x.got ++ packet }).goReceiver a (.countPacket (.data packet)))
          else none
  | .closing, .silent =>
      match s.fd a with
      | none => some (s.goReceiver a .closed)
      | some d =>
          some { s.goReceiver a .closed with files := Function.update s.files d none }
  | .closed, .silent => some ((s.setFd a none).goReceiver a (.countPacket .ended))
  | .countPacket result, .silent =>
      some ((s.countIn a fun m => { m with packetsReceived := m.packetsReceived + 1 }).goReceiver a
        (.countBytes result))
  | .countBytes result, .silent =>
      some ((s.countIn a fun m =>
        { m with bytesReceived := m.bytesReceived + BitVec.ofInt 64 result.rv }).goReceiver a
          (.returned result))
  | .returned (.data packet), .silent =>
      some { s.goReceiver a .testing with
        queue := Function.update s.queue a (s.queue a ++ [packet]) }
  | .returned .ended, .silent => some (s.goReceiver a .testing)
  | .returned .failed, .silent => some (s.goReceiver a .testing)
  | _, _ => none

/-- `max_queue_size > 0 && queue.size() > max_queue_size`. -/
def Bridge.overflows (maxQueueSize : Side → Int) (s : Bridge B) (a : Side) : Bool :=
  decide (0 < maxQueueSize a) && decide (maxQueueSize a < (s.queue a).length)

/-- One step of `sender_thread`, through `Adapter::send` and `do_send` of the sink. -/
def senderStep (maxQueueSize : Side → Int) (s : Bridge B) (a : Side) (answer : Answer B) :
    Option (Bridge B) :=
  match s.sender a, answer with
  | .taking, .silent =>
      match s.queue a with
      | [] => none
      | packet :: rest =>
          some { s.goSender a (.testing packet) with queue := Function.update s.queue a rest }
  | .testing packet, .silent =>
      match s.fd a.other with
      | none => some ((s.settle a [⟨packet, .swallowed⟩]).goSender a .trimming)
      | some _ => some (s.goSender a (.sending packet))
  | .sending packet, .send none =>
      some ((s.settle a [⟨packet, .refused⟩]).goSender a (.countPacket packet))
  | .sending packet, .send (some len) =>
      match s.behind a.other with
      | none => none
      | some place =>
          if len ≤ packet.length then
            some (((s.settle a [⟨packet, .sent len⟩]).onSocket place fun x =>
              { x with sent := x.sent ++ packet.take len }).goSender a (.countPacket packet))
          else none
  | .countPacket packet, .silent =>
      some ((s.countIn a.other fun m => { m with packetsSent := m.packetsSent + 1 }).goSender a
        (.countBytes packet))
  | .countBytes packet, .silent =>
      some ((s.countIn a.other fun m =>
        { m with bytesSent := m.bytesSent + BitVec.ofNat 64 packet.length }).goSender a .trimming)
  | .trimming, .silent =>
      if s.overflows maxQueueSize a then
        some
          { (s.settle a ((s.queue a).map fun packet => ⟨packet, .purged⟩)).goSender a .taking with
            queue := Function.update s.queue a [] }
      else some (s.goSender a .taking)
  | _, _ => none

/-- One step of `Bridge::monitor`. -/
def monitorStep (s : Bridge B) : Bridge B :=
  match s.monitor with
  | .readUp => { s with monitor := .readDown (s.metrics .up) }
  | .readDown up => { s with monitor := .printing up (s.metrics .down) }
  | .printing up down =>
      { s with
        monitor := .readUp
        lines := s.lines ++ [⟨up.since s.previousUp, down.since s.previousDown⟩]
        previousUp := up
        previousDown := down }

def bridgeStep (maxQueueSize : Side → Int) (s : Bridge B) : BridgeLabel B → Option (Bridge B)
  | .receiver a answer => receiverStep s a answer
  | .sender a answer => senderStep maxQueueSize s a answer
  | .monitor => some (monitorStep s)

/-! ### What each step does -/

/-- What each step of a receiver finds and what it leaves. -/
inductive ReceiverMove (s : Bridge B) (a : Side) : Answer B → Bridge B → Prop
  | testDown (hat : s.receiver a = .testing) (hfd : s.fd a = none) :
      ReceiverMove s a .silent (s.goReceiver a .connecting)
  | testUp {d : Nat} (hat : s.receiver a = .testing) (hfd : s.fd a = some d) :
      ReceiverMove s a .silent (s.goReceiver a .receiving)
  | noSocket (hat : s.receiver a = .connecting) :
      ReceiverMove s a (.socket none) ((s.setFd a none).goReceiver a .testing)
  | socket {d : Nat} (hat : s.receiver a = .connecting) (hfree : s.files d = none) :
      ReceiverMove s a (.socket (some d)) { (s.setFd a (some d)).goReceiver a .opened with
        files := Function.update s.files d (some (a, (s.sockets a).length))
        sockets := Function.update s.sockets a (s.sockets a ++ [⟨[], []⟩]) }
  | connected (hat : s.receiver a = .opened) :
      ReceiverMove s a (.connect true) (s.goReceiver a .testing)
  | abandon (hat : s.receiver a = .opened) :
      ReceiverMove s a (.connect false) { (s.setFd a none).goReceiver a .testing with
        abandoned := s.abandoned ++ (s.fd a).toList }
  | failed (hat : s.receiver a = .receiving) :
      ReceiverMove s a (.recv .failed) ((s.note a .failed).goReceiver a (.countPacket .failed))
  | ended (hat : s.receiver a = .receiving) :
      ReceiverMove s a (.recv .ended) ((s.note a .ended).goReceiver a .closing)
  | data {packet : List B} {place : Side × Nat} (hat : s.receiver a = .receiving)
      (hbehind : s.behind a = some place)
      (hlen : 0 < packet.length ∧ packet.length ≤ packetSize) :
      ReceiverMove s a (.recv (.data packet)) (((s.note a (.data packet)).onSocket place fun x =>
        { x with got := x.got ++ packet }).goReceiver a (.countPacket (.data packet)))
  | closeNone (hat : s.receiver a = .closing) (hfd : s.fd a = none) :
      ReceiverMove s a .silent (s.goReceiver a .closed)
  | close {d : Nat} (hat : s.receiver a = .closing) (hfd : s.fd a = some d) :
      ReceiverMove s a .silent
        { s.goReceiver a .closed with files := Function.update s.files d none }
  | forget (hat : s.receiver a = .closed) :
      ReceiverMove s a .silent ((s.setFd a none).goReceiver a (.countPacket .ended))
  | countPacket {result : RecvResult B} (hat : s.receiver a = .countPacket result) :
      ReceiverMove s a .silent ((s.countIn a fun m =>
        { m with packetsReceived := m.packetsReceived + 1 }).goReceiver a (.countBytes result))
  | countBytes {result : RecvResult B} (hat : s.receiver a = .countBytes result) :
      ReceiverMove s a .silent ((s.countIn a fun m =>
        { m with bytesReceived := m.bytesReceived + BitVec.ofInt 64 result.rv }).goReceiver a
          (.returned result))
  | push {packet : List B} (hat : s.receiver a = .returned (.data packet)) :
      ReceiverMove s a .silent { s.goReceiver a .testing with
        queue := Function.update s.queue a (s.queue a ++ [packet]) }
  | drop {result : RecvResult B} (hat : s.receiver a = .returned result)
      (hnone : result.packets = []) : ReceiverMove s a .silent (s.goReceiver a .testing)

theorem receiverStep_moves {s t : Bridge B} {a : Side} {answer : Answer B}
    (hstep : receiverStep s a answer = some t) : ReceiverMove s a answer t := by
  unfold receiverStep at hstep
  split at hstep
  · rename_i hat
    split at hstep <;> cases hstep
    · exact .testDown hat ‹_›
    · exact .testUp hat ‹_›
  · rename_i hat
    cases hstep
    exact .noSocket hat
  · rename_i hat
    split at hstep <;> cases hstep
    exact .socket hat ‹_›
  · rename_i hat
    cases hstep
    exact .connected hat
  · rename_i hat
    cases hstep
    exact .abandon hat
  · rename_i hat
    cases hstep
    exact .failed hat
  · rename_i hat
    split at hstep <;> cases hstep
    exact .ended hat
  · rename_i hat
    split at hstep
    · cases hstep
    · obtain ⟨hlen, hstep⟩ := Option.ite_none_right_eq_some.mp hstep
      cases hstep
      exact .data hat ‹_› hlen
  · rename_i hat
    split at hstep <;> cases hstep
    · exact .closeNone hat ‹_›
    · exact .close hat ‹_›
  · rename_i hat
    cases hstep
    exact .forget hat
  · rename_i hat
    cases hstep
    exact .countPacket hat
  · rename_i hat
    cases hstep
    exact .countBytes hat
  · rename_i hat
    cases hstep
    exact .push hat
  · rename_i hat
    cases hstep
    exact .drop hat rfl
  · rename_i hat
    cases hstep
    exact .drop hat rfl
  · cases hstep

/-- What each step of a sender finds and what it leaves. -/
inductive SenderMove (maxQueueSize : Side → Int) (s : Bridge B) (a : Side) : Bridge B → Prop
  | take {packet : List B} {rest : List (List B)} (hat : s.sender a = .taking)
      (hqueue : s.queue a = packet :: rest) :
      SenderMove maxQueueSize s a
        { s.goSender a (.testing packet) with queue := Function.update s.queue a rest }
  | testDown {packet : List B} (hat : s.sender a = .testing packet)
      (hfd : s.fd a.other = none) :
      SenderMove maxQueueSize s a ((s.settle a [⟨packet, .swallowed⟩]).goSender a .trimming)
  | testUp {packet : List B} (hat : s.sender a = .testing packet) :
      SenderMove maxQueueSize s a (s.goSender a (.sending packet))
  | refused {packet : List B} (hat : s.sender a = .sending packet) :
      SenderMove maxQueueSize s a ((s.settle a [⟨packet, .refused⟩]).goSender a
        (.countPacket packet))
  | send {packet : List B} {place : Side × Nat} {len : Nat} (hat : s.sender a = .sending packet)
      (hbehind : s.behind a.other = some place) (hlen : len ≤ packet.length) :
      SenderMove maxQueueSize s a (((s.settle a [⟨packet, .sent len⟩]).onSocket place fun x =>
        { x with sent := x.sent ++ packet.take len }).goSender a (.countPacket packet))
  | countPacket {packet : List B} (hat : s.sender a = .countPacket packet) :
      SenderMove maxQueueSize s a ((s.countIn a.other fun m =>
        { m with packetsSent := m.packetsSent + 1 }).goSender a (.countBytes packet))
  | countBytes {packet : List B} (hat : s.sender a = .countBytes packet) :
      SenderMove maxQueueSize s a ((s.countIn a.other fun m =>
        { m with bytesSent := m.bytesSent + BitVec.ofNat 64 packet.length }).goSender a .trimming)
  | purge (hat : s.sender a = .trimming) (hover : s.overflows maxQueueSize a = true) :
      SenderMove maxQueueSize s a
        { (s.settle a ((s.queue a).map fun packet => ⟨packet, .purged⟩)).goSender a .taking with
          queue := Function.update s.queue a [] }
  | keep (hat : s.sender a = .trimming) : SenderMove maxQueueSize s a (s.goSender a .taking)

theorem senderStep_moves {maxQueueSize : Side → Int} {s t : Bridge B} {a : Side}
    {answer : Answer B} (hstep : senderStep maxQueueSize s a answer = some t) :
    SenderMove maxQueueSize s a t := by
  unfold senderStep at hstep
  split at hstep
  · rename_i hat
    split at hstep <;> cases hstep
    exact .take hat ‹_›
  · rename_i hat
    split at hstep <;> cases hstep
    · exact .testDown hat ‹_›
    · exact .testUp hat
  · rename_i hat
    cases hstep
    exact .refused hat
  · rename_i hat
    split at hstep
    · cases hstep
    · obtain ⟨hlen, hstep⟩ := Option.ite_none_right_eq_some.mp hstep
      cases hstep
      exact .send hat ‹_› hlen
  · rename_i hat
    cases hstep
    exact .countPacket hat
  · rename_i hat
    cases hstep
    exact .countBytes hat
  · rename_i hat
    split at hstep <;> cases hstep
    · exact .purge hat ‹_›
    · exact .keep hat
  · cases hstep

/-! ### The descriptors -/

/-- The descriptor an adapter names and has not given back. -/
def Bridge.current (s : Bridge B) (a : Side) : Option Nat :=
  if (s.receiver a).stale then none else s.fd a

/-- Every adapter that is connected or connecting has a descriptor of its own, with its newest
socket behind it; what else is open was abandoned. -/
structure Bridge.Files (s : Bridge B) : Prop where
  own : ∀ a d, s.current a = some d →
    ∃ k, s.files d = some (a, k) ∧ k + 1 = (s.sockets a).length
  idle : ∀ a, s.receiver a = .connecting → s.fd a = none
  opened : ∀ a, s.receiver a = .opened → (s.fd a).isSome
  isOpen : ∀ d, (s.files d).isSome ↔ d ∈ s.abandoned ∨ ∃ a, s.current a = some d
  apart : ∀ a, ∀ d ∈ s.abandoned, s.current a ≠ some d
  nodup : s.abandoned.Nodup

theorem files_start : (Bridge.start : Bridge B).Files where
  own a d h := by cases h
  idle _ _ := rfl
  opened _ h := by cases h
  isOpen d := by
    constructor
    · intro h
      cases h
    · rintro (h | ⟨a, h⟩) <;> cases h
  apart _ _ h := absurd h List.not_mem_nil
  nodup := List.nodup_nil

/-- Two adapters have no descriptor in common. -/
theorem Bridge.Files.side_eq {s : Bridge B} (hs : s.Files) {a b : Side} {d : Nat}
    (ha : s.current a = some d) (hb : s.current b = some d) : a = b := by
  obtain ⟨k, hk, -⟩ := hs.own a d ha
  obtain ⟨l, hl, -⟩ := hs.own b d hb
  rw [hk, Option.some.injEq, Prod.mk.injEq] at hl
  exact hl.1

theorem Bridge.current_of_fd {s : Bridge B} {a : Side} (h : (s.receiver a).stale = false) :
    s.current a = s.fd a := by
  rw [Bridge.current, h]
  rfl

theorem Bridge.current_ne {s t : Bridge B} {a b : Side} {x : ReceiverAt B} (hne : b ≠ a)
    (hreceiver : t.receiver = Function.update s.receiver a x) (hfd : t.fd b = s.fd b) :
    t.current b = s.current b := by
  rw [Bridge.current, hreceiver, Function.update_of_ne hne, hfd]
  rfl

/-- Where the descriptors and the sockets stay, so do these facts. -/
theorem Bridge.Files.same {s t : Bridge B} (hs : s.Files)
    (hcurrent : ∀ a, t.current a = s.current a) (hfiles : t.files = s.files)
    (hlen : ∀ a, (t.sockets a).length = (s.sockets a).length)
    (habandoned : t.abandoned = s.abandoned)
    (hidle : ∀ a, t.receiver a = .connecting → t.fd a = none)
    (hopened : ∀ a, t.receiver a = .opened → (t.fd a).isSome) : t.Files where
  own a d h := by
    rw [hfiles, hlen]
    exact hs.own a d (hcurrent a ▸ h)
  idle := hidle
  opened := hopened
  isOpen d := by
    simp only [hfiles, habandoned, hcurrent]
    exact hs.isOpen d
  apart a d h := by
    rw [hcurrent]
    exact hs.apart a d (habandoned ▸ h)
  nodup := habandoned ▸ hs.nodup

theorem Bridge.current_self {s t : Bridge B} {a : Side} {x : ReceiverAt B}
    (hreceiver : t.receiver = Function.update s.receiver a x) :
    t.current a = if x.stale then none else t.fd a := by
  rw [Bridge.current, hreceiver, Function.update_self]

/-- What the other receiver has to do with its descriptor is as before. -/
theorem Bridge.Files.phases {s t : Bridge B} (hs : s.Files) {a : Side} {x : ReceiverAt B}
    (hreceiver : t.receiver = Function.update s.receiver a x)
    (hfd : ∀ b, b ≠ a → t.fd b = s.fd b)
    (hidle : x = .connecting → t.fd a = none) (hopened : x ≠ .opened) :
    (∀ b, t.receiver b = .connecting → t.fd b = none) ∧
      ∀ b, t.receiver b = .opened → (t.fd b).isSome := by
  constructor
  · intro b hb
    rw [hreceiver] at hb
    by_cases hba : b = a
    · subst hba
      rw [Function.update_self] at hb
      exact hidle hb
    · rw [Function.update_of_ne hba] at hb
      exact (hfd b hba).trans (hs.idle b hb)
  · intro b hb
    rw [hreceiver] at hb
    by_cases hba : b = a
    · subst hba
      rw [Function.update_self] at hb
      exact absurd hb hopened
    · rw [Function.update_of_ne hba] at hb
      exact hfd b hba ▸ hs.opened b hb

/-- The same for a receiver that goes on with the descriptor it has, or with none. -/
theorem Bridge.Files.go {s t : Bridge B} (hs : s.Files) {a : Side} {x : ReceiverAt B}
    (hreceiver : t.receiver = Function.update s.receiver a x)
    (hfd : ∀ b, b ≠ a → t.fd b = s.fd b) (hfiles : t.files = s.files)
    (hlen : ∀ b, (t.sockets b).length = (s.sockets b).length)
    (habandoned : t.abandoned = s.abandoned)
    (hcurrent : (if x.stale then none else t.fd a) = s.current a)
    (hidle : x = .connecting → t.fd a = none) (hopened : x ≠ .opened) : t.Files := by
  obtain ⟨hconnecting, hopening⟩ := hs.phases hreceiver hfd hidle hopened
  refine hs.same ?_ hfiles hlen habandoned hconnecting hopening
  intro b
  by_cases hb : b = a
  · subst hb
    exact (Bridge.current_self hreceiver).trans hcurrent
  · exact Bridge.current_ne hb hreceiver (hfd b hb)

/-- What is open after the descriptor of one adapter alone has changed. -/
theorem Bridge.exists_current_iff {s t : Bridge B} {a : Side}
    (hother : ∀ b, b ≠ a → t.current b = s.current b) (d : Nat) :
    (∃ b, t.current b = some d) ↔
      t.current a = some d ∨ ∃ b, b ≠ a ∧ s.current b = some d := by
  constructor
  · rintro ⟨b, hb⟩
    by_cases hba : b = a
    · exact Or.inl (hba ▸ hb)
    · exact Or.inr ⟨b, hba, (hother b hba).symm.trans hb⟩
  · rintro (ha | ⟨b, hba, hb⟩)
    · exact ⟨a, ha⟩
    · exact ⟨b, (hother b hba).trans hb⟩

/-- A new socket gets a descriptor that nothing refers to. -/
theorem Bridge.Files.socket {s t : Bridge B} (hs : s.Files) {a : Side} {d : Nat}
    (hat : s.receiver a = .connecting) (hfree : s.files d = none)
    (hreceiver : t.receiver = Function.update s.receiver a .opened)
    (hfd : t.fd = Function.update s.fd a (some d))
    (hfiles : t.files = Function.update s.files d (some (a, (s.sockets a).length)))
    (hsockets : t.sockets = Function.update s.sockets a (s.sockets a ++ [⟨[], []⟩]))
    (habandoned : t.abandoned = s.abandoned) : t.Files := by
  have hself : t.current a = some d := by
    rw [Bridge.current_self hreceiver, hfd, Function.update_self]
    rfl
  have hother (b : Side) (hb : b ≠ a) : t.current b = s.current b :=
    Bridge.current_ne hb hreceiver (by rw [hfd, Function.update_of_ne hb])
  have hunused : d ∉ s.abandoned ∧ ∀ b, s.current b ≠ some d := by
    have hnone := (hs.isOpen d).not.mp (by simp [hfree])
    push Not at hnone
    exact hnone
  have hnone : s.current a = none := by
    rw [Bridge.current_of_fd (by rw [hat]; rfl), hs.idle a hat]
  constructor
  · intro b e hb
    by_cases hba : b = a
    · subst hba
      rw [hself, Option.some.injEq] at hb
      subst hb
      refine ⟨_, by rw [hfiles, Function.update_self], ?_⟩
      rw [hsockets, Function.update_self, List.length_append, List.length_singleton]
    · rw [hother b hba] at hb
      obtain ⟨k, hk, hnewest⟩ := hs.own b e hb
      have hed : e ≠ d := fun heq => hunused.2 b (heq ▸ hb)
      refine ⟨k, ?_, ?_⟩
      · rw [hfiles, Function.update_of_ne hed, hk]
      · rw [hsockets, Function.update_of_ne hba, hnewest]
  · intro b hb
    rw [hreceiver] at hb
    by_cases hba : b = a
    · subst hba
      rw [Function.update_self] at hb
      cases hb
    · rw [Function.update_of_ne hba] at hb
      rw [hfd, Function.update_of_ne hba]
      exact hs.idle b hb
  · intro b hb
    by_cases hba : b = a
    · subst hba
      rw [hfd, Function.update_self]
      rfl
    · rw [hreceiver, Function.update_of_ne hba] at hb
      rw [hfd, Function.update_of_ne hba]
      exact hs.opened b hb
  · intro e
    rw [Bridge.exists_current_iff hother, hself, habandoned, hfiles]
    by_cases hed : e = d
    · subst hed
      simp
    · rw [Function.update_of_ne hed, hs.isOpen e]
      have hne : some d ≠ some e := fun h => hed (Option.some.inj h).symm
      have ha : (∃ b, s.current b = some e) ↔ ∃ b, b ≠ a ∧ s.current b = some e := by
        constructor
        · rintro ⟨b, hb⟩
          refine ⟨b, ?_, hb⟩
          rintro rfl
          rw [hnone] at hb
          cases hb
        · rintro ⟨b, -, hb⟩
          exact ⟨b, hb⟩
      simp only [hne, false_or, ha]
  · intro b e he
    rw [habandoned] at he
    by_cases hba : b = a
    · subst hba
      rw [hself]
      rintro ⟨rfl⟩
      exact hunused.1 he
    · rw [hother b hba]
      exact hs.apart b e he
  · exact habandoned ▸ hs.nodup

/-- An adapter lets go of its descriptor `d`. -/
structure Bridge.LetsGo (s t : Bridge B) (a : Side) (d : Nat) : Prop where
  current : s.current a = some d
  none : t.current a = none
  other : ∀ b, b ≠ a → t.current b = s.current b
  sockets : t.sockets = s.sockets
  idle : ∀ b, t.receiver b = .connecting → t.fd b = .none
  opened : ∀ b, t.receiver b = .opened → (t.fd b).isSome

theorem Bridge.Files.letsGo {s t : Bridge B} (hs : s.Files) {a : Side} {d : Nat}
    {x : ReceiverAt B} (hreceiver : t.receiver = Function.update s.receiver a x)
    (hfd : ∀ b, b ≠ a → t.fd b = s.fd b) (hsockets : t.sockets = s.sockets)
    (hcurrent : s.current a = some d) (hnone : (if x.stale then none else t.fd a) = none)
    (hidle : x ≠ .connecting) (hopened : x ≠ .opened) : s.LetsGo t a d := by
  obtain ⟨hconnecting, hopening⟩ := hs.phases hreceiver hfd (fun h => absurd h hidle) hopened
  exact ⟨hcurrent, (Bridge.current_self hreceiver).trans hnone,
    fun b hb => Bridge.current_ne hb hreceiver (hfd b hb), hsockets, hconnecting, hopening⟩

/-- What is open and not abandoned is then what was, without `d`. -/
theorem Bridge.LetsGo.exists_current_iff {s t : Bridge B} {a : Side} {d : Nat}
    (h : s.LetsGo t a d) (hs : s.Files) (e : Nat) :
    (∃ b, t.current b = some e) ↔ e ≠ d ∧ ∃ b, s.current b = some e := by
  rw [Bridge.exists_current_iff h.other, h.none]
  constructor
  · rintro (hnone | ⟨b, hba, hb⟩)
    · cases hnone
    · refine ⟨?_, b, hb⟩
      rintro rfl
      exact hba (hs.side_eq hb h.current)
  · rintro ⟨hed, b, hb⟩
    refine Or.inr ⟨b, ?_, hb⟩
    rintro rfl
    exact hed (Option.some.inj (hb.symm.trans h.current))

theorem Bridge.LetsGo.current_of {s t : Bridge B} {a : Side} {d : Nat}
    (h : s.LetsGo t a d) {b : Side} {e : Nat} (hb : t.current b = some e) :
    b ≠ a ∧ s.current b = some e := by
  have hba : b ≠ a := by
    rintro rfl
    rw [h.none] at hb
    cases hb
  exact ⟨hba, (h.other b hba).symm.trans hb⟩

/-- The descriptor of a failed attempt stays open. -/
theorem Bridge.Files.abandon {s t : Bridge B} (hs : s.Files) {a : Side} {d : Nat}
    (h : s.LetsGo t a d) (hfiles : t.files = s.files)
    (habandoned : t.abandoned = s.abandoned ++ [d]) : t.Files where
  own b e hb := by
    rw [hfiles, h.sockets]
    exact hs.own b e (h.current_of hb).2
  idle := h.idle
  opened := h.opened
  isOpen e := by
    rw [hfiles, hs.isOpen e, h.exists_current_iff hs, habandoned, List.mem_append,
      List.mem_singleton]
    by_cases hed : e = d
    · subst hed
      simp only [or_true, true_or, iff_true]
      exact Or.inr ⟨a, h.current⟩
    · simp only [hed, or_false, ne_eq, not_false_eq_true, true_and]
  apart b e he hb := by
    obtain ⟨hba, hsb⟩ := h.current_of hb
    rw [habandoned, List.mem_append, List.mem_singleton] at he
    rcases he with he | rfl
    · exact hs.apart b e he hsb
    · exact hba (hs.side_eq hsb h.current)
  nodup := by
    rw [habandoned, List.nodup_append_comm, List.singleton_append, List.nodup_cons]
    exact ⟨fun hd => hs.apart a d hd h.current, hs.nodup⟩

/-- A descriptor that is closed was nobody else's. -/
theorem Bridge.Files.close {s t : Bridge B} (hs : s.Files) {a : Side} {d : Nat}
    (h : s.LetsGo t a d) (hfiles : t.files = Function.update s.files d none)
    (habandoned : t.abandoned = s.abandoned) : t.Files where
  own b e hb := by
    obtain ⟨hba, hsb⟩ := h.current_of hb
    have hed : e ≠ d := by
      rintro rfl
      exact hba (hs.side_eq hsb h.current)
    rw [hfiles, Function.update_of_ne hed, h.sockets]
    exact hs.own b e hsb
  idle := h.idle
  opened := h.opened
  isOpen e := by
    rw [hfiles, h.exists_current_iff hs, habandoned]
    by_cases hed : e = d
    · subst hed
      simp only [Function.update_self, Option.isSome_none, Bool.false_eq_true, ne_eq,
        not_true_eq_false, false_and, or_false, false_iff]
      exact fun hd => hs.apart a e hd h.current
    · rw [Function.update_of_ne hed, hs.isOpen e]
      simp only [ne_eq, hed, not_false_eq_true, true_and]
  apart b e he hb := hs.apart b e (habandoned ▸ he) (h.current_of hb).2
  nodup := habandoned ▸ hs.nodup

theorem Bridge.onSocket_length (s : Bridge B) (place : Side × Nat) (f : Socket B → Socket B)
    (b : Side) : ((s.onSocket place f).sockets b).length = (s.sockets b).length := by
  simp only [Bridge.onSocket]
  by_cases hb : b = place.1
  · subst hb
    rw [Function.update_self, List.length_modify]
  · rw [Function.update_of_ne hb]

theorem ReceiverMove.files {s t : Bridge B} {a : Side} {answer : Answer B}
    (h : ReceiverMove s a answer t) (hs : s.Files) : t.Files := by
  -- a receiver that goes on with the descriptor it has
  have hgo {t : Bridge B} (x : ReceiverAt B) := hs.go (t := t) (a := a) (x := x)
  have hcurrent {x : ReceiverAt B} (hat : s.receiver a = x) (hstale : x.stale = false) :
      s.fd a = s.current a := (Bridge.current_of_fd (hat ▸ hstale)).symm
  cases h with
  | testDown hat hfd =>
      exact hgo .connecting rfl (fun _ _ => rfl) rfl (fun _ => rfl) rfl (hcurrent hat rfl)
        (fun _ => hfd) nofun
  | testUp hat hfd =>
      exact hgo .receiving rfl (fun _ _ => rfl) rfl (fun _ => rfl) rfl (hcurrent hat rfl)
        nofun nofun
  | noSocket hat =>
      refine hgo .testing rfl (fun b hb => Function.update_of_ne hb ..) rfl (fun _ => rfl) rfl ?_
        nofun nofun
      rw [← hcurrent hat rfl, hs.idle a hat]
      exact Function.update_self ..
  | socket hat hfree => exact hs.socket hat hfree rfl rfl rfl rfl rfl
  | connected hat =>
      exact hgo .testing rfl (fun _ _ => rfl) rfl (fun _ => rfl) rfl (hcurrent hat rfl)
        nofun nofun
  | abandon hat =>
      obtain ⟨d, hd⟩ := Option.isSome_iff_exists.mp (hs.opened a hat)
      refine hs.abandon (hs.letsGo rfl (fun b hb => Function.update_of_ne hb ..) rfl
        ((hcurrent hat rfl).symm.trans hd) (Function.update_self ..) nofun nofun) rfl ?_
      rw [hd]
      rfl
  | failed hat =>
      exact hgo (.countPacket .failed) rfl (fun _ _ => rfl) rfl (fun _ => rfl) rfl
        (hcurrent hat rfl) nofun nofun
  | ended hat =>
      exact hgo .closing rfl (fun _ _ => rfl) rfl (fun _ => rfl) rfl (hcurrent hat rfl)
        nofun nofun
  | data hat hbehind hlen =>
      exact hgo (.countPacket (.data _)) rfl (fun _ _ => rfl) rfl
        (fun _ => s.onSocket_length ..) rfl (hcurrent hat rfl) nofun nofun
  | closeNone hat hfd =>
      refine hgo .closed rfl (fun _ _ => rfl) rfl (fun _ => rfl) rfl ?_ nofun nofun
      rw [← hcurrent hat rfl, hfd]
      rfl
  | close hat hfd =>
      exact hs.close (hs.letsGo rfl (fun _ _ => rfl) rfl ((hcurrent hat rfl).symm.trans hfd) rfl
        nofun nofun) rfl rfl
  | forget hat =>
      refine hgo (.countPacket .ended) rfl (fun b hb => Function.update_of_ne hb ..) rfl
        (fun _ => rfl) rfl ?_ nofun nofun
      rw [Bridge.current, hat]
      exact Function.update_self ..
  | countPacket hat =>
      exact hgo (.countBytes _) rfl (fun _ _ => rfl) rfl (fun _ => rfl) rfl (hcurrent hat rfl)
        nofun nofun
  | countBytes hat =>
      exact hgo (.returned _) rfl (fun _ _ => rfl) rfl (fun _ => rfl) rfl (hcurrent hat rfl)
        nofun nofun
  | push hat =>
      exact hgo .testing rfl (fun _ _ => rfl) rfl (fun _ => rfl) rfl (hcurrent hat rfl)
        nofun nofun
  | drop hat hnone =>
      exact hgo .testing rfl (fun _ _ => rfl) rfl (fun _ => rfl) rfl (hcurrent hat rfl)
        nofun nofun

theorem SenderMove.files {maxQueueSize : Side → Int} {s t : Bridge B} {a : Side}
    (h : SenderMove maxQueueSize s a t) (hs : s.Files) : t.Files := by
  cases h with
  | send =>
      exact hs.same (fun _ => rfl) rfl (fun b => s.onSocket_length _ _ b) rfl hs.idle hs.opened
  | take | testDown | testUp | refused | countPacket | countBytes | purge | keep =>
      exact hs.same (fun _ => rfl) rfl (fun _ => rfl) rfl hs.idle hs.opened

theorem bridgeStep_files {maxQueueSize : Side → Int} {s t : Bridge B} {label : BridgeLabel B}
    (hs : s.Files) (hstep : bridgeStep maxQueueSize s label = some t) : t.Files := by
  cases label with
  | receiver a answer => exact (receiverStep_moves hstep).files hs
  | sender a answer => exact (senderStep_moves hstep).files hs
  | monitor =>
      cases hstep
      unfold monitorStep
      split <;> exact hs.same (fun _ => rfl) rfl (fun _ => rfl) rfl hs.idle hs.opened

/-- `connect` gives up after `socket` gave it a descriptor. -/
def BridgeLabel.failedConnect : BridgeLabel B → Bool
  | receiver _ (.connect false) => true
  | _ => false

theorem bridgeStep_abandoned {maxQueueSize : Side → Int} {s t : Bridge B}
    {label : BridgeLabel B} (hs : s.Files) (hstep : bridgeStep maxQueueSize s label = some t) :
    ∃ new, t.abandoned = s.abandoned ++ new ∧
      new.length = if label.failedConnect then 1 else 0 := by
  cases label with
  | sender a answer =>
      cases senderStep_moves hstep <;> exact ⟨[], (List.append_nil _).symm, rfl⟩
  | monitor =>
      cases hstep
      unfold monitorStep
      split <;> exact ⟨[], (List.append_nil _).symm, rfl⟩
  | receiver a answer =>
      cases receiverStep_moves hstep with
      | abandon hat =>
          obtain ⟨d, hd⟩ := Option.isSome_iff_exists.mp (hs.opened a hat)
          exact ⟨[d], by simp [hd], rfl⟩
      | testDown | testUp | noSocket | socket | connected | failed | ended | data | closeNone
      | close | forget | countPacket | countBytes | push | drop =>
          exact ⟨[], (List.append_nil _).symm, rfl⟩

theorem run_files {maxQueueSize : Side → Int} {s t : Bridge B} {labels : List (BridgeLabel B)}
    (hs : s.Files) (hrun : run (bridgeStep maxQueueSize) s labels = some t) : t.Files :=
  run_invariant _ (fun _ _ _ hu hstep => bridgeStep_files hu hstep) hs hrun

/-- A run abandons one descriptor for each `connect` that fails, and takes none up again. -/
theorem run_abandoned {maxQueueSize : Side → Int} {s t : Bridge B} {labels : List (BridgeLabel B)}
    (hs : s.Files) (hrun : run (bridgeStep maxQueueSize) s labels = some t) :
    ∃ new, t.abandoned = s.abandoned ++ new ∧
      new.length = labels.countP BridgeLabel.failedConnect := by
  induction labels generalizing s with
  | nil =>
      cases hrun
      exact ⟨[], (List.append_nil _).symm, rfl⟩
  | cons label labels ih =>
      obtain ⟨u, hstep, hrest⟩ := (run_cons_eq_some_iff _).mp hrun
      obtain ⟨first, hu, hfirst⟩ := bridgeStep_abandoned hs hstep
      obtain ⟨rest, ht, hlen⟩ := ih (bridgeStep_files hs hstep) hrest
      refine ⟨first ++ rest, ?_, ?_⟩
      · rw [ht, hu, List.append_assoc]
      · rw [List.length_append, hfirst, hlen, List.countP_cons, Nat.add_comm]

/-- However the threads interleave and whatever the kernel answers: the two adapters never
name the same open descriptor, each names its own newest socket, and all that is open
besides was left behind by the failed attempts to connect, one for each of them, and is
never closed. -/
theorem bridge_descriptors (maxQueueSize : Side → Int) {labels : List (BridgeLabel B)}
    {s : Bridge B} (h : run (bridgeStep maxQueueSize) .start labels = some s) :
    (∀ a d, s.current a = some d →
      s.current a.other ≠ some d ∧
        ∃ k, s.files d = some (a, k) ∧ k + 1 = (s.sockets a).length) ∧
    (∀ d, (s.files d).isSome ↔ d ∈ s.abandoned ∨ ∃ a, s.current a = some d) ∧
    (∀ a, ∀ d ∈ s.abandoned, s.current a ≠ some d) ∧
    s.abandoned.Nodup ∧ s.abandoned.length = labels.countP BridgeLabel.failedConnect ∧
    ∀ more t, run (bridgeStep maxQueueSize) s more = some t →
      ∀ d ∈ s.abandoned, (t.files d).isSome := by
  have hs := run_files files_start h
  obtain ⟨new, hnew, hlen⟩ := run_abandoned files_start h
  refine ⟨?_, hs.isOpen, hs.apart, hs.nodup, ?_, ?_⟩
  · intro a d ha
    exact ⟨fun hother => a.other_ne (hs.side_eq hother ha), hs.own a d ha⟩
  · rw [hnew, ← hlen]
    rfl
  · intro more t hmore d hd
    obtain ⟨later, hlater, -⟩ := run_abandoned hs hmore
    rw [(run_files hs hmore).isOpen, hlater]
    exact Or.inl (List.mem_append_left _ hd)

/-- The first attempt to connect fails. -/
def retryLabels : List (BridgeLabel UInt8) :=
  [.receiver .up .silent, .receiver .up (.socket (some 3)), .receiver .up (.connect false),
    .receiver .up .silent, .receiver .up (.socket (some 4)), .receiver .up (.connect true)]

def retryBridge : Bridge UInt8 := (run (bridgeStep fun _ => 0) .start retryLabels).getD .start

theorem retryLabels_run : run (bridgeStep fun _ => 0) .start retryLabels = some retryBridge := rfl

theorem bridge_descriptors_retry :
    retryBridge.abandoned.length = 1 ∧ retryBridge.current .down ≠ some 4 := by
  obtain ⟨hown, -, -, -, hlen, -⟩ := bridge_descriptors (fun _ => 0) retryLabels_run
  exact ⟨hlen, (hown .up 4 rfl).1⟩

end SecureGateway
