import SecureGateway.Library.Framing
import SecureGateway.Library.Run
import SecureGateway.Library.Stores
import SecureGateway.Uart

/-!
# The stream sinks

The threaded TCP sink, the outgoing TCP sink and the UART sink encode a message and
hand it to one `send` or `write`. A call that is cut short is an error for the caller,
but the bytes are on the stream and the next message follows them.

## Implementation notes

The count a system call returns is an input, `none` for a failure. Each sink carries the
bytes its open connection accepted so far. `pipeline_push` does not look at what a route
operation returns, so a run of route calls goes on whatever they return.
-/

namespace SecureGateway

open Library

/-- The codes the route operations return. -/
inductive RouteCode
  | succ
  | ioFault
deriving DecidableEq

/-! ### The TCP sinks -/

/-- The members of `struct tcp_socket_t` and of `struct tcpout_socket_t` the route operations
use, with what the connection accepted; `fd` is `tcp->connection` in the first. -/
structure TcpStream where
  fd : Option Nat
  outputBuffer : Nat → UInt8
  accepted : List UInt8

/-- The body both route operations have. -/
def tcpRoute (codec : MavlinkCodec) (tcp : TcpStream) (msg : MavlinkMessage)
    (sent : Option Nat) : RouteCode × TcpStream :=
  if tcp.fd = none then (.succ, tcp)
  else
    let frame := codec.msgToSendBuffer msg
    let tcp := { tcp with outputBuffer := overwrite tcp.outputBuffer frame }
    let len := frame.length
    match sent with
    | none => (.ioFault, tcp)
    | some rv =>
        let tcp :=
          { tcp with accepted := tcp.accepted ++ (List.range rv).map tcp.outputBuffer }
        if rv < len then (.ioFault, tcp) else (.succ, tcp)

/-- `tcp_route_to_mt`, on `tcp->connection`. -/
def tcpRouteToMt (codec : MavlinkCodec) : TcpStream → MavlinkMessage → Option Nat →
    RouteCode × TcpStream :=
  tcpRoute codec

/-- `tcp_route_to` of `source_tcpout`, on `tcp->fd`. -/
def tcpoutRouteTo (codec : MavlinkCodec) : TcpStream → MavlinkMessage → Option Nat →
    RouteCode × TcpStream :=
  tcpRoute codec

/-! ### The UART sink -/

/-- A connection with what the device accepted. -/
structure UartStream where
  uart : UartConnection
  accepted : List UInt8

/-- `uart_route_to` with the count `write` returns. -/
def uartRouteToStream (codec : MavlinkCodec) (s : UartStream) (msg : MavlinkMessage)
    (bytesWritten : Option Nat) : RouteCode × UartStream :=
  let (uart, handed) := uartRouteTo codec s.uart msg
  match bytesWritten with
  | none => (.ioFault, { s with uart := uart })
  | some n =>
      let s := { uart := uart, accepted := s.accepted ++ handed.take n }
      if n < handed.length then (.ioFault, s) else (.succ, s)

/-! ### Sinks on an open connection -/

/-- A sink of frames: its route operation, what its connection accepted, and whether the
connection is open. -/
structure StreamSink (S : Type) where
  route : S → MavlinkMessage → Option Nat → RouteCode × S
  accepted : S → List UInt8
  isOpen : S → Prop

/-- A message that is routed and the outcome of its system call, between nothing and the
whole encoding. -/
structure RouteCall (codec : MavlinkCodec) where
  msg : MavlinkMessage
  sent : Option Nat
  le_length : ∀ n ∈ sent, n ≤ (codec.msgToSendBuffer msg).length

/-- A sink with the messages routed to it: the encoding of each and what the connection
accepted during the call. -/
structure StreamRun (S : Type) where
  sink : S
  writes : List (FrameWrite UInt8)

variable {S : Type} {codec : MavlinkCodec}

def streamStep (M : StreamSink S) (codec : MavlinkCodec) (s : StreamRun S)
    (call : RouteCall codec) : StreamRun S :=
  let after := (M.route s.sink call.msg call.sent).2
  { sink := after
    writes := s.writes ++ [{
      frame := codec.msgToSendBuffer call.msg
      bytes := (M.accepted after).drop (M.accepted s.sink).length }] }

/-- A run of route calls on a connection that has accepted nothing. -/
def streamRun (M : StreamSink S) (codec : MavlinkCodec) (sink : S)
    (calls : List (RouteCall codec)) : StreamRun S :=
  calls.foldl (streamStep M codec) ⟨sink, []⟩

/-- The stream consists of whole frames and a beginning of one, and no byte of a later message
follows one that was cut short. -/
def EmitsWholeFrames (M : StreamSink S) (s : StreamRun S) : Prop :=
  WholeFrames s.writes (M.accepted s.sink) ∧ NoneAfterCut s.writes

/-- The system call took some bytes of the encoding but not all. -/
def RouteCall.CutShort (call : RouteCall codec) : Prop :=
  ∃ n, call.sent = some n ∧ 0 < n ∧ n < (codec.msgToSendBuffer call.msg).length

/-- The system call took at least one byte. -/
def RouteCall.Takes (call : RouteCall codec) : Prop := ∃ n, call.sent = some n ∧ 0 < n

/-- What a sink has to do for the run lemmas: a call on an open connection adds the counted
bytes of the encoding to the stream and leaves the connection open. -/
structure StreamSink.Lawful (M : StreamSink S) (codec : MavlinkCodec) : Prop where
  accepts : ∀ s (call : RouteCall codec), M.isOpen s →
    M.accepted (M.route s call.msg call.sent).2 =
      M.accepted s ++ (codec.msgToSendBuffer call.msg).take (call.sent.getD 0)
  stays_open : ∀ s (call : RouteCall codec), M.isOpen s →
    M.isOpen (M.route s call.msg call.sent).2

/-- What the connection accepts of a call. -/
def RouteCall.write (call : RouteCall codec) : FrameWrite UInt8 where
  frame := codec.msgToSendBuffer call.msg
  bytes := (codec.msgToSendBuffer call.msg).take (call.sent.getD 0)

theorem RouteCall.bytes_ne_nil_iff (call : RouteCall codec) :
    call.write.bytes ≠ [] ↔ call.Takes := by
  cases hsent : call.sent with
  | none => simp [RouteCall.write, RouteCall.Takes, hsent]
  | some n =>
      have hle := call.le_length n hsent
      have htakes : call.Takes ↔ 0 < n := by simp [RouteCall.Takes, hsent]
      rw [htakes, ne_eq, ← List.length_eq_zero_iff]
      simp only [RouteCall.write, hsent, Option.getD_some, List.length_take]
      omega

theorem RouteCall.whole_iff (call : RouteCall codec) :
    call.write.Whole ↔ ¬ call.CutShort := by
  cases hsent : call.sent with
  | none => simp [FrameWrite.Whole, RouteCall.write, RouteCall.CutShort, hsent]
  | some n =>
      have hle := call.le_length n hsent
      have hcut : call.CutShort ↔ 0 < n ∧ n < (codec.msgToSendBuffer call.msg).length := by
        simp [RouteCall.CutShort, hsent]
      have hnone : call.write.bytes = [] ↔ n = 0 := by
        rw [← List.length_eq_zero_iff]
        simp only [RouteCall.write, hsent, Option.getD_some, List.length_take]
        omega
      have hall : call.write.bytes = call.write.frame ↔
          (codec.msgToSendBuffer call.msg).length ≤ n := by
        simp [RouteCall.write, hsent, List.take_eq_self_iff]
      rw [FrameWrite.Whole, hnone, hall, hcut]
      omega

theorem streamRun_append (M : StreamSink S) (sink : S) (calls : List (RouteCall codec))
    (call : RouteCall codec) :
    streamRun M codec sink (calls ++ [call]) =
      streamStep M codec (streamRun M codec sink calls) call := by
  simp [streamRun, List.foldl_append]

/-- After any calls the connection is open, and it accepted what the calls wrote. -/
theorem streamRun_spec {M : StreamSink S} (laws : M.Lawful codec) {sink : S}
    (hopen : M.isOpen sink) (hstart : M.accepted sink = []) (calls : List (RouteCall codec)) :
    M.isOpen (streamRun M codec sink calls).sink ∧
      (streamRun M codec sink calls).writes = calls.map RouteCall.write ∧
      M.accepted (streamRun M codec sink calls).sink =
        Library.accepted (calls.map RouteCall.write) := by
  induction calls using List.reverseRecOn with
  | nil => exact ⟨hopen, rfl, hstart⟩
  | append_singleton calls call ih =>
      obtain ⟨hopened, hwrites, haccepted⟩ := ih
      have hnew := laws.accepts _ call hopened
      rw [streamRun_append]
      refine ⟨laws.stays_open _ call hopened, ?_, ?_⟩
      · simp [streamStep, hwrites, hnew, RouteCall.write]
      · simp [streamStep, hnew, haccepted, RouteCall.write, Library.accepted]

/-- A lawful sink emits whole frames exactly when no call takes a byte after one that was cut
short. -/
theorem StreamSink.Lawful.emitsWholeFrames_iff {M : StreamSink S} (laws : M.Lawful codec)
    {sink : S} (hopen : M.isOpen sink) (hstart : M.accepted sink = [])
    (calls : List (RouteCall codec)) :
    EmitsWholeFrames M (streamRun M codec sink calls) ↔
      calls.Pairwise fun earlier later => later.Takes → ¬ earlier.CutShort := by
  obtain ⟨-, hwrites, haccepted⟩ := streamRun_spec laws hopen hstart calls
  have hpairwise : NoneAfterCut (calls.map RouteCall.write) ↔
      calls.Pairwise fun earlier later => later.Takes → ¬ earlier.CutShort := by
    rw [NoneAfterCut, List.pairwise_map]
    simp only [RouteCall.bytes_ne_nil_iff, RouteCall.whole_iff]
  rw [EmitsWholeFrames, hwrites, haccepted, ← hpairwise]
  constructor
  · exact And.right
  · intro hnone
    refine ⟨hnone.wholeFrames ?_, hnone⟩
    intro w hw
    obtain ⟨call, -, rfl⟩ := List.mem_map.mp hw
    exact List.take_prefix _ _

/-! ### The three sinks -/

def tcpMtSink (codec : MavlinkCodec) : StreamSink TcpStream where
  route := tcpRouteToMt codec
  accepted := TcpStream.accepted
  isOpen := fun tcp => tcp.fd ≠ none

def tcpoutSink (codec : MavlinkCodec) : StreamSink TcpStream where
  route := tcpoutRouteTo codec
  accepted := TcpStream.accepted
  isOpen := fun tcp => tcp.fd ≠ none

def uartSink (codec : MavlinkCodec) : StreamSink UartStream where
  route := uartRouteToStream codec
  accepted := UartStream.accepted
  isOpen := fun _ => True

/-- What `send` is handed starts with the encoding. -/
theorem map_range_take (cells : Nat → UInt8) (frame : List UInt8) {n : Nat}
    (h : n ≤ frame.length) : (List.range n).map (overwrite cells frame) = frame.take n := by
  have hrange : List.range n = (List.range frame.length).take n := by
    rw [List.take_range, Nat.min_eq_left h]
  rw [hrange, List.map_take, map_range_overwrite]

theorem tcpRoute_spec (codec : MavlinkCodec) (tcp : TcpStream) (call : RouteCall codec)
    (hopen : tcp.fd ≠ none) :
    (tcpRoute codec tcp call.msg call.sent).2.accepted =
        tcp.accepted ++ (codec.msgToSendBuffer call.msg).take (call.sent.getD 0) ∧
      (tcpRoute codec tcp call.msg call.sent).2.fd = tcp.fd := by
  cases hsent : call.sent with
  | none => simp [tcpRoute, hopen]
  | some n =>
      have htake := map_range_take tcp.outputBuffer (codec.msgToSendBuffer call.msg)
        (call.le_length n hsent)
      simp only [tcpRoute, if_neg hopen, htake, Option.getD_some]
      split <;> exact ⟨rfl, rfl⟩

theorem tcpMtSink_lawful (codec : MavlinkCodec) : (tcpMtSink codec).Lawful codec where
  accepts := fun tcp call hopen => (tcpRoute_spec codec tcp call hopen).1
  stays_open := by
    intro tcp call hopen
    change (tcpRoute codec tcp call.msg call.sent).2.fd ≠ none
    rw [(tcpRoute_spec codec tcp call hopen).2]
    exact hopen

theorem tcpoutSink_lawful (codec : MavlinkCodec) : (tcpoutSink codec).Lawful codec where
  accepts := fun tcp call hopen => (tcpRoute_spec codec tcp call hopen).1
  stays_open := by
    intro tcp call hopen
    change (tcpRoute codec tcp call.msg call.sent).2.fd ≠ none
    rw [(tcpRoute_spec codec tcp call hopen).2]
    exact hopen

/-- The UART sink hands `write` the encoding. -/
theorem uartRouteTo_handed (codec : MavlinkCodec) (uart : UartConnection)
    (msg : MavlinkMessage) : (uartRouteTo codec uart msg).2 = codec.msgToSendBuffer msg := by
  simp only [uartRouteTo, uartWrite, uartEncode, Function.update_self]
  exact map_range_overwrite (uart.mem .outputBuffer) (codec.msgToSendBuffer msg)

theorem uartSink_lawful (codec : MavlinkCodec) : (uartSink codec).Lawful codec where
  accepts := by
    intro s call _
    have hhanded := uartRouteTo_handed codec s.uart call.msg
    simp only [uartSink, uartRouteToStream]
    cases call.sent with
    | none => simp
    | some n =>
        simp only [Option.getD_some, ← hhanded]
        split <;> rfl
  stays_open := fun _ _ _ => trivial

/-- On one open connection, whatever the outcomes of `send` and `write`, each of the three
sinks emits whole frames exactly when nothing is taken after a message that was cut short. -/
theorem streamSinks_emitWholeFrames_iff (codec : MavlinkCodec) :
    (∀ tcp calls, tcp.fd ≠ none → tcp.accepted = [] →
      (EmitsWholeFrames (tcpMtSink codec) (streamRun (tcpMtSink codec) codec tcp calls) ↔
        calls.Pairwise fun earlier later => later.Takes → ¬ earlier.CutShort)) ∧
    (∀ tcp calls, tcp.fd ≠ none → tcp.accepted = [] →
      (EmitsWholeFrames (tcpoutSink codec) (streamRun (tcpoutSink codec) codec tcp calls) ↔
        calls.Pairwise fun earlier later => later.Takes → ¬ earlier.CutShort)) ∧
    (∀ uart calls, uart.accepted = [] →
      (EmitsWholeFrames (uartSink codec) (streamRun (uartSink codec) codec uart calls) ↔
        calls.Pairwise fun earlier later => later.Takes → ¬ earlier.CutShort)) := by
  refine ⟨?_, ?_, ?_⟩
  · intro tcp calls hopen hstart
    exact (tcpMtSink_lawful codec).emitsWholeFrames_iff hopen hstart calls
  · intro tcp calls hopen hstart
    exact (tcpoutSink_lawful codec).emitsWholeFrames_iff hopen hstart calls
  · intro uart calls hstart
    exact (uartSink_lawful codec).emitsWholeFrames_iff trivial hstart calls

/-- A telemetry message with a payload of one byte, of which `n` bytes are taken. -/
def shortCall (n : Nat) (h : n ≤ 13) : RouteCall wireCodec where
  msg := frameOfPayload [7]
  sent := some n
  le_length := by
    intro m hm
    have hlen : (wireCodec.msgToSendBuffer (frameOfPayload [7])).length = 13 := by decide
    rw [hlen, ← Option.some.inj hm]
    exact h

/-- Two messages that are taken as a whole. -/
theorem streamSinks_emitWholeFrames_two :
    EmitsWholeFrames (tcpMtSink wireCodec) (streamRun (tcpMtSink wireCodec) wireCodec
      ⟨some 3, fun _ => 0, []⟩ [shortCall 13 (by decide), shortCall 13 (by decide)]) := by
  apply ((streamSinks_emitWholeFrames_iff wireCodec).1 _ _ (by decide) rfl).mpr
  apply List.pairwise_pair.mpr
  rintro - ⟨n, hn, -, hlt⟩
  cases hn
  exact absurd hlt (by decide)

/-- A `send` that takes one byte, and the next message behind it. -/
theorem streamSinks_emit_cutFrame :
    ¬ ∀ (codec : MavlinkCodec) (tcp : TcpStream) (calls : List (RouteCall codec)),
      tcp.fd ≠ none → tcp.accepted = [] →
        EmitsWholeFrames (tcpMtSink codec) (streamRun (tcpMtSink codec) codec tcp calls) := by
  intro hall
  let tcp : TcpStream := ⟨some 3, fun _ => 0, []⟩
  have hopen : (tcpMtSink wireCodec).isOpen tcp := by
    intro h
    cases h
  have hemits := hall wireCodec tcp [shortCall 1 (by decide), shortCall 13 (by decide)] hopen rfl
  have hnone := ((tcpMtSink_lawful wireCodec).emitsWholeFrames_iff hopen rfl _).mp hemits
  apply List.pairwise_pair.mp hnone
  · exact ⟨13, rfl, by decide⟩
  · exact ⟨1, rfl, by decide, by decide⟩

end SecureGateway
