import SecureGateway.Links
import SecureGateway.PollingSources
import SecureGateway.TcpDrain

/-!
# The gateway on CertiKOS

The CertiKOS UART, Partee and ThinROS adapters as links of the gateway, each with both
of its sides. Everything a transport delivers is read, parsed and mediated once and in
order, and everything an adapter was handed is written or published as one whole frame.

## Implementation notes

What a transport does at each call is a sequence the link holds. Each adapter has one
object, `hook_partee` and `hook_thinros` always use the legacy slots, and of two hooks
of one slot the later one is in force. A failed assertion is noted in the link.
-/

namespace SecureGateway

open Library

/-! ### The reading side -/

/-- A polling source with what its transport does call by call, and what its polls gave. -/
structure PolledLink (B X : Type) where
  source : B
  inputs : Nat → X
  calls : Nat
  polls : List (List UInt8)

namespace PolledLink

variable {B X : Type}

def start (source : B) (inputs : Nat → X) : PolledLink B X := ⟨source, inputs, 0, []⟩

/-- What the transport does at the present call. -/
def input (a : PolledLink B X) : X := a.inputs a.calls

def hasMore (src : PollingSource B X UInt8) (a : PolledLink B X) : Int × PolledLink B X :=
  let p := src.hasMore a.source a.input
  (if p.answer then 1 else 0,
    { a with source := p.source, calls := a.calls + 1, polls := a.polls ++ p.chunk.toList })

def readByte (src : PollingSource B X UInt8) (a : PolledLink B X) : Int × PolledLink B X :=
  let r := src.readByte a.source a.input
  (r.1.toNat, { a with source := r.2, calls := a.calls + 1 })

/-- The bytes given away and those unread are what the polls gave. -/
structure Conserves (Inv : B → Prop) (unread : B → List UInt8) (a : PolledLink B X)
    (bytes : List UInt8) : Prop where
  inv : Inv a.source
  conserved : bytes ++ unread a.source = a.polls.flatten

variable {src : PollingSource B X UInt8} {Inv : B → Prop} {unread : B → List UInt8}
  {ready : B → X → List UInt8} {a : PolledLink B X} {bytes : List UInt8}

theorem hasMore_ne_zero_iff : (a.hasMore src).1 ≠ 0 ↔ (src.hasMore a.source a.input).answer := by
  cases h : (src.hasMore a.source a.input).answer <;> simp [hasMore, h]

/-- A poll conserves, whether or not it finds a byte. -/
theorem Conserves.hasMore (laws : src.Lawful Inv unread ready) (ha : a.Conserves Inv unread bytes) :
    (a.hasMore src).2.Conserves Inv unread bytes := by
  refine ⟨laws.inv_hasMore a.source a.input ha.inv, ?_⟩
  have hall := ha.conserved
  simp only [PolledLink.hasMore]
  rcases laws.hasMore a.source a.input ha.inv with hkept | hfetched
  · simpa [hkept.unread_eq, hkept.chunk] using hall
  · rw [hfetched.unread_nil, List.append_nil] at hall
    simp [hfetched.unread_eq, hfetched.chunk, hall]

/-- The byte read after a poll that found one is the next one. -/
theorem Conserves.read (laws : src.Lawful Inv unread ready) (ha : a.Conserves Inv unread bytes)
    (hmore : (a.hasMore src).1 ≠ 0) :
    let r := (a.hasMore src).2.readByte src
    r.2.Conserves Inv unread (bytes ++ [byteOfInt r.1]) := by
  have hpolled := ha.hasMore laws
  have hne : unread (a.hasMore src).2.source ≠ [] :=
    (laws.answer_iff ha.inv a.input).mp (hasMore_ne_zero_iff.mp hmore)
  obtain ⟨b, rest, hunread⟩ := List.exists_cons_of_ne_nil hne
  obtain ⟨hbyte, hrest⟩ := laws.readByte _ (a.hasMore src).2.input b rest hpolled.inv hunread
  refine ⟨laws.inv_readByte _ _ hpolled.inv hne, ?_⟩
  have hall := hpolled.conserved
  rw [hunread] at hall
  simp only [PolledLink.readByte, byteOfInt_toNat, hbyte, hrest, List.append_assoc,
    List.singleton_append]
  exact hall

end PolledLink

/-! ### The CertiKOS UART -/

/-- `certikos_uart_socket` as a link, with what `writes` was given. -/
structure CertikosUartLink where
  input : PolledLink CertikosUartSocket (Chunk certikosUartDataSize)
  outputData : Nat → UInt8
  written : List (List UInt8)
  aborted : Bool

/-- `certikos_uart_route_to`; the result of `writes` is not looked at. -/
def certikosUartRouteTo (codec : MavlinkCodec) (msg : MavlinkMessage) (a : CertikosUartLink) :
    CertikosUartLink :=
  let uart := certikosUartReady a.input.source
  let frame := codec.msgToSendBuffer msg
  let len := frame.length
  let a :=
    { a with
      input := { a.input with source := uart }
      outputData := overwrite a.outputData frame }
  if len ≤ mavlinkMaxPacketLen then
    { a with written := a.written ++ [(List.range len).map a.outputData] }
  else { a with aborted := true }

def certikosUartOps (codec : MavlinkCodec) : LinkOps CertikosUartLink where
  hasMore a := ((a.input.hasMore certikosUart).1,
    { a with input := (a.input.hasMore certikosUart).2 })
  readByte a := ((a.input.readByte certikosUart).1,
    { a with input := (a.input.readByte certikosUart).2 })
  route := certikosUartRouteTo codec

/-- The UART gave away what `reads` gave it but for what is unread, and wrote every message
it was handed as one frame. -/
structure CertikosUartLink.Kept (codec : MavlinkCodec) (a : CertikosUartLink)
    (bytes : List UInt8) (msgs : List MavlinkMessage) : Prop where
  input : a.input.Conserves CertikosUartSocket.Ready CertikosUartSocket.unread bytes
  written : a.written = msgs.map codec.msgToSendBuffer
  running : a.aborted = false

theorem certikosUartOps_lawful {codec : MavlinkCodec}
    (hlen : ∀ msg, (codec.msgToSendBuffer msg).length ≤ mavlinkMaxPacketLen) :
    (certikosUartOps codec).Lawful (CertikosUartLink.Kept codec) where
  silent a bytes msgs ha _ := ⟨ha.input.hasMore certikosUart_lawful, ha.written, ha.running⟩
  read a bytes msgs ha hmore :=
    ⟨ha.input.read certikosUart_lawful hmore, ha.written, ha.running⟩
  route a bytes msgs msg ha := by
    obtain ⟨hinit, hunread⟩ := certikosUartReady_spec ha.input.inv
    simp only [certikosUartOps, certikosUartRouteTo, if_pos (hlen msg), map_range_overwrite]
    refine ⟨⟨CertikosUartSocket.ready_of_initialized hinit, ?_⟩, ?_, ha.running⟩
    · rw [hunread]
      exact ha.input.conserved
    · rw [ha.written, List.map_append, List.map_singleton]

/-! ### Partee -/

/-- What `partee_socket_route_to` returns. -/
inductive ParteeCode
  | success
  | ioFault
  | invalidParam
deriving DecidableEq

/-- `partee_socket` as a link. What `partee_msg_alloc` gives, call by call, is a slot with
what is in it, or nothing; `published` are the slots with their sizes. -/
structure ParteeLink where
  input : PolledLink ParteeSocket (Chunk mavlinkMaxPacketLen)
  slots : Nat → Option (Nat → UInt8)
  returned : List ParteeCode
  published : List MavlinkMsg

/-- `partee_socket_route_to`. -/
def parteeSocketRouteTo (codec : MavlinkCodec) (msg : MavlinkMessage) (a : ParteeLink) :
    ParteeLink :=
  match a.slots a.returned.length with
  | none => { a with returned := a.returned ++ [.ioFault] }
  | some slot =>
      let frame := codec.msgToSendBuffer msg
      let parteeMsg : MavlinkMsg := { len := frame.length, data := overwrite slot frame }
      if parteeMsg.len > mavlinkMaxPacketLen then
        { a with returned := a.returned ++ [.invalidParam] }
      else
        { a with
          returned := a.returned ++ [.success]
          published := a.published ++ [parteeMsg] }

def parteeOps (codec : MavlinkCodec) : LinkOps ParteeLink where
  hasMore a := ((a.input.hasMore partee).1, { a with input := (a.input.hasMore partee).2 })
  readByte a := ((a.input.readByte partee).1, { a with input := (a.input.readByte partee).2 })
  route := parteeSocketRouteTo codec

/-- The messages whose route call returned success. -/
def routedWith (msgs : List MavlinkMessage) (codes : List ParteeCode) : List MavlinkMessage :=
  ((msgs.zip codes).filter fun x => x.2 = .success).map Prod.fst

/-- Partee gave away what its polls gave it but for what is unread, and published as one
frame every message but those it got no slot for. -/
structure ParteeLink.Kept (codec : MavlinkCodec) (a : ParteeLink) (bytes : List UInt8)
    (msgs : List MavlinkMessage) : Prop where
  input : a.input.Conserves (fun _ => True) ParteeSocket.unread bytes
  returned : a.returned.length = msgs.length
  slots : ∀ n (h : n < a.returned.length), a.returned[n] =
    if (a.slots n).isSome then .success else .ioFault
  published : a.published.map MavlinkMsg.bytes =
    (routedWith msgs a.returned).map codec.msgToSendBuffer

theorem routedWith_append {msgs : List MavlinkMessage} {codes : List ParteeCode}
    (h : codes.length = msgs.length) (msg : MavlinkMessage) (code : ParteeCode) :
    routedWith (msgs ++ [msg]) (codes ++ [code]) =
      routedWith msgs codes ++ if code = .success then [msg] else [] := by
  unfold routedWith
  rw [List.zip_append h.symm, List.filter_append, List.map_append]
  cases code <;> rfl

theorem parteeOps_lawful {codec : MavlinkCodec}
    (hlen : ∀ msg, (codec.msgToSendBuffer msg).length ≤ mavlinkMaxPacketLen) :
    (parteeOps codec).Lawful (ParteeLink.Kept codec) where
  silent a bytes msgs ha _ := { ha with input := ha.input.hasMore partee_lawful }
  read a bytes msgs ha hmore := { ha with input := ha.input.read partee_lawful hmore }
  route a bytes msgs msg ha := by
    have hslots (code : ParteeCode)
        (hcode : code = if (a.slots a.returned.length).isSome then .success else .ioFault)
        (n : Nat) (h : n < (a.returned ++ [code]).length) :
        (a.returned ++ [code])[n] = if (a.slots n).isSome then .success else .ioFault := by
      rcases Nat.lt_or_ge n a.returned.length with hn | hn
      · rw [List.getElem_append_left hn]
        exact ha.slots n hn
      · obtain rfl : n = a.returned.length := by
          rw [List.length_append, List.length_singleton] at h
          omega
        rw [List.getElem_concat_length rfl]
        exact hcode
    have hlength (code : ParteeCode) :
        (a.returned ++ [code]).length = (msgs ++ [msg]).length := by
      simp [ha.returned]
    simp only [parteeOps, parteeSocketRouteTo]
    cases hslot : a.slots a.returned.length with
    | none =>
        refine ⟨ha.input, hlength _, hslots _ (by simp [hslot]), ?_⟩
        rw [routedWith_append ha.returned]
        simpa using ha.published
    | some slot =>
        simp only [gt_iff_lt, if_neg (Nat.not_lt.mpr (hlen msg))]
        refine ⟨ha.input, hlength _, hslots _ (by simp [hslot]), ?_⟩
        rw [routedWith_append ha.returned, List.map_append, ha.published]
        simp [MavlinkMsg.bytes]

/-! ### ThinROS -/

/-- `thinros_socket` as a link. `published` are the structures `ros_publish` was given, whole,
each with the publisher it was called with. -/
structure ThinrosLink where
  input : PolledLink ThinrosSocket ThinrosInput
  outputMsg : MavlinkMsg
  published : List (Option Nat × MavlinkMsg)
  aborted : Bool

/-- `thinros_socket_route_to`: `sizeof(mavlink_msg_t)` bytes are published, whatever the
length of the frame. -/
def thinrosSocketRouteTo (codec : MavlinkCodec) (msg : MavlinkMessage) (a : ThinrosLink) :
    ThinrosLink :=
  let ros := thinrosReady a.input.source a.input.input.advertise
  let frame := codec.msgToSendBuffer msg
  let a :=
    { a with
      input := { a.input with source := ros, calls := a.input.calls + 1 }
      outputMsg := { len := frame.length, data := overwrite a.outputMsg.data frame } }
  if a.outputMsg.len ≤ mavlinkMaxPacketLen then
    { a with published := a.published ++ [(ros.publisher, a.outputMsg)] }
  else { a with aborted := true }

def thinrosOps (codec : MavlinkCodec) : LinkOps ThinrosLink where
  hasMore a := ((a.input.hasMore thinros).1, { a with input := (a.input.hasMore thinros).2 })
  readByte a := ((a.input.readByte thinros).1, { a with input := (a.input.readByte thinros).2 })
  route := thinrosSocketRouteTo codec

/-- The byte at an index of the last frame that reaches it. -/
def lastReaching (frames : List (List UInt8)) (j : Nat) : Option UInt8 :=
  (frames.reverse.find? fun frame => j < frame.length).bind fun frame => frame[j]?

theorem lastReaching_append (frames : List (List UInt8)) (frame : List UInt8) (j : Nat) :
    lastReaching (frames ++ [frame]) j = (frame[j]?).or (lastReaching frames j) := by
  unfold lastReaching
  rw [List.reverse_append, List.reverse_singleton, List.singleton_append, List.find?_cons]
  by_cases h : j < frame.length
  · simp [h]
  · simp [h]

/-- ThinROS gave away what its spins gave it but for what is unread, and published every
message it was handed as one frame. Behind its frame a structure has the bytes of the
earlier frames that were longer. -/
structure ThinrosLink.Kept (codec : MavlinkCodec) (a : ThinrosLink) (bytes : List UInt8)
    (msgs : List MavlinkMessage) : Prop where
  input : a.input.Conserves ThinrosSocket.Ready ThinrosSocket.unread bytes
  outputMsg : ∀ j, a.outputMsg.data j =
    (lastReaching (msgs.map codec.msgToSendBuffer) j).getD 0
  frames : a.published.map (fun x => x.2.bytes) = msgs.map codec.msgToSendBuffer
  leftovers : ∀ n (h : n < a.published.length) j, a.published[n].2.data j =
    (lastReaching ((msgs.take (n + 1)).map codec.msgToSendBuffer) j).getD 0
  running : a.aborted = false

theorem ThinrosLink.Kept.length_published {codec : MavlinkCodec} {a : ThinrosLink}
    {bytes : List UInt8} {msgs : List MavlinkMessage} (ha : a.Kept codec bytes msgs) :
    a.published.length = msgs.length := by
  simpa using congrArg List.length ha.frames

theorem thinrosOps_lawful {codec : MavlinkCodec}
    (hlen : ∀ msg, (codec.msgToSendBuffer msg).length ≤ mavlinkMaxPacketLen) :
    (thinrosOps codec).Lawful (ThinrosLink.Kept codec) where
  silent a bytes msgs ha _ := { ha with input := ha.input.hasMore thinros_lawful }
  read a bytes msgs ha hmore := { ha with input := ha.input.read thinros_lawful hmore }
  route a bytes msgs msg ha := by
    obtain ⟨hready, hunread⟩ := thinrosReady_spec ha.input.inv a.input.input.advertise
    have hdata (j : Nat) : overwrite a.outputMsg.data (codec.msgToSendBuffer msg) j =
        (lastReaching ((msgs ++ [msg]).map codec.msgToSendBuffer) j).getD 0 := by
      rw [List.map_append, List.map_singleton, lastReaching_append, overwrite,
        List.getD_eq_getElem?_getD, ha.outputMsg]
      cases (codec.msgToSendBuffer msg)[j]? <;> rfl
    simp only [thinrosOps, thinrosSocketRouteTo, if_pos (hlen msg)]
    refine ⟨⟨hready, ?_⟩, hdata, ?_, ?_, ha.running⟩
    · rw [hunread]
      exact ha.input.conserved
    · rw [List.map_append, ha.frames, List.map_append]
      simp [MavlinkMsg.bytes]
    · intro n hn j
      have hlength := ha.length_published
      rcases Nat.lt_or_ge n a.published.length with hlt | hge
      · rw [List.getElem_append_left hlt, ha.leftovers n hlt j,
          List.take_append_of_le_length (by omega)]
      · obtain rfl : n = a.published.length := by
          rw [List.length_append, List.length_singleton] at hn
          omega
        rw [List.getElem_concat_length rfl, List.take_of_length_le (by simp [hlength])]
        exact hdata j

/-! ### The gateway -/

/-- The adapters, each with its one object. -/
inductive CertikosAdapter
  | uart
  | partee
  | thinros
deriving DecidableEq

/-- The link behind an adapter. -/
def CertikosLink : CertikosAdapter → Type
  | .uart => CertikosUartLink
  | .partee => ParteeLink
  | .thinros => ThinrosLink

def certikosOps (codec : MavlinkCodec) : ∀ l, LinkOps (CertikosLink l)
  | .uart => certikosUartOps codec
  | .partee => parteeOps codec
  | .thinros => thinrosOps codec

/-- A registration of a CertiKOS deployment. `publisher` and `subscriber` say whether
`hook_partee` could create its two ends. -/
inductive CertikosSetup (T : Type)
  | hookCertikosUart (sourceId sinkType : Nat)
  | hookPartee (publisher subscriber : Bool)
  | hookThinros
  | other (op : LinkSetup CertikosAdapter T)

/-- What a registration does to the slots; without its two ends Partee is not hooked. -/
def CertikosSetup.links {T : Type} : CertikosSetup T → List (LinkSetup CertikosAdapter T)
  | hookCertikosUart sourceId sinkType => [.hook sourceId sinkType .uart]
  | hookPartee publisher subscriber =>
      if publisher && subscriber then [.hook SourceType.legacy.id SinkType.legacy.id .partee]
      else []
  | hookThinros => [.hook SourceType.legacy.id SinkType.legacy.id .thinros]
  | other op => [op]

/-- What the transports will do. -/
structure CertikosTransports where
  reads : Nat → Chunk certikosUartDataSize
  topicReads : Nat → Chunk mavlinkMaxPacketLen
  slots : Nat → Option (Nat → UInt8)
  ros : Nat → ThinrosInput

/-- The objects as the hooks leave them. -/
def CertikosTransports.links (t : CertikosTransports) : ∀ l, CertikosLink l
  | .uart => ⟨.start certikosUartSocket t.reads, fun _ => 0, [], false⟩
  | .partee => ⟨.start parteeSocket t.topicReads, t.slots, [], []⟩
  | .thinros => ⟨.start thinrosSocket t.ros, ⟨0, fun _ => 0⟩, [], false⟩

/-- What is kept of each link. -/
def CertikosLink.Kept (codec : MavlinkCodec) :
    ∀ l, CertikosLink l → List UInt8 → List MavlinkMessage → Prop
  | .uart => CertikosUartLink.Kept codec
  | .partee => ParteeLink.Kept codec
  | .thinros => ThinrosLink.Kept codec

theorem certikosOps_lawful {codec : MavlinkCodec}
    (hlen : ∀ msg, (codec.msgToSendBuffer msg).length ≤ mavlinkMaxPacketLen)
    (l : CertikosAdapter) : (certikosOps codec l).Lawful (CertikosLink.Kept codec l) := by
  cases l with
  | uart => exact certikosUartOps_lawful hlen
  | partee => exact parteeOps_lawful hlen
  | thinros => exact thinrosOps_lawful hlen

theorem CertikosTransports.kept (codec : MavlinkCodec) (t : CertikosTransports)
    (l : CertikosAdapter) : CertikosLink.Kept codec l (t.links l) [] [] := by
  cases l with
  | uart => exact ⟨⟨fun _ => rfl, rfl⟩, rfl, rfl⟩
  | partee =>
      refine ⟨⟨trivial, rfl⟩, rfl, ?_, rfl⟩
      intro n h
      cases h
  | thinros =>
      refine ⟨⟨fun _ => ⟨rfl, rfl⟩, rfl⟩, fun _ => rfl, rfl, ?_, rfl⟩
      intro n h
      cases h

/-- The gateway on CertiKOS, in every run: it stops short for want of fuel at most; every
message completed is handed to exactly the sinks its route and the policies call for; and
what each adapter delivered and was handed is accounted for byte by byte. -/
theorem certikos_gateway {G T : Type} (codec : MavlinkCodec)
    (hlen : ∀ msg, (codec.msgToSendBuffer msg).length ≤ mavlinkMaxPacketLen)
    {securityPolicyInit : SecurityPolicyMgmt → Except Fault SecurityPolicyMgmt}
    {prior initial p : Pipeline (Links CertikosLink T)} {setup : List (CertikosSetup T)}
    (hinit : pipelineInit securityPolicyInit prior = .ok initial)
    (hsetup : configure initial
      ((setup.flatMap CertikosSetup.links).map (LinkSetup.op (certikosOps codec))) = .ok p)
    (hops : p.OpsKeepRouting)
    (hverdict : ∀ policy ∈ p.policies.policies, policy.VerdictIgnoresAttr)
    {env : Env (Links CertikosLink T) G}
    (hclock : ∀ world, (env.timeUs world).2.link = world.link)
    (t : CertikosTransports) (rest : T) (parser : G) (actions : List Action) :
    let r := runActions env (Machine.start p ⟨t.links, rest⟩ parser) actions
    let m := finalMachine r
    let w := wiring (setup.flatMap CertikosSetup.links)
    OnlyFuel r ∧
    (∀ turn ∈ m.log, turn.calls.map Prod.fst = turn.expected p) ∧
    CertikosUartLink.Kept codec (m.world.link .uart) (readFrom w .uart m.log)
      (handedTo w .uart m.log) ∧
    ParteeLink.Kept codec (m.world.link .partee) (readFrom w .partee m.log)
      (handedTo w .partee m.log) ∧
    ThinrosLink.Kept codec (m.world.link .thinros) (readFrom w .thinros m.log)
      (handedTo w .thinros m.log) := by
  intro r m w
  have hkept := ledger_kept (certikosOps_lawful hlen) hinit hsetup hops hverdict hclock
    ⟨t.links, rest⟩ (t.kept codec) parser actions
  exact ⟨hkept.fuel, fun turn hturn => (hkept.inv.log turn hturn).calls, hkept.inv.links .uart,
    hkept.inv.links .partee, hkept.inv.links .thinros⟩

theorem length_wireSendBuffer_le (msg : MavlinkMessage) :
    (wireCodec.msgToSendBuffer msg).length ≤ mavlinkMaxPacketLen := by
  have htrim := mavTrimPayload_le msg.payloadByte msg.len.toNat
  have hlen := msg.len.toNat_lt
  simp only [wireCodec, wireSendBuffer, frameBody, mavlinkMaxPacketLen, List.length_append,
    List.length_cons, List.length_nil, List.length_map, List.length_range]
  omega

/-- The vehicle behind the CertiKOS UART, the legacy components behind ThinROS, which took
the slots from Partee. -/
def certikosSetup : List (CertikosSetup Unit) :=
  [.hookCertikosUart SourceType.vmc.id SinkType.vmc.id, .hookPartee true true, .hookThinros]

def certikosPipeline : Pipeline (Links CertikosLink Unit) :=
  match configure (shippedPipeline wireCodec)
      ((certikosSetup.flatMap CertikosSetup.links).map
        (LinkSetup.op (certikosOps wireCodec))) with
  | .ok p => p
  | .error _ => .zero

theorem certikos_setup : configure (shippedPipeline wireCodec)
    ((certikosSetup.flatMap CertikosSetup.links).map (LinkSetup.op (certikosOps wireCodec))) =
      .ok certikosPipeline := rfl

def certikosEnv : Env (Links CertikosLink Unit) (Nat → List UInt8) where
  debug := false
  parser := wireParser
  timeUs world := (0, world)

/-- The UART gives a heartbeat at the first call, the legacy components one at the second. -/
def certikosTransports : CertikosTransports where
  reads n := if n = 0 then ⟨heartbeat, by decide⟩ else ⟨[], by decide⟩
  topicReads _ := ⟨[], by decide⟩
  slots _ := none
  ros n :=
    { advertise := some 1
      message := if n = 1 then some ⟨⟨13, fun j => heartbeat.getD j 0⟩, by decide⟩ else none }

theorem certikosPipeline_routesKeepMessage : certikosPipeline.RoutesKeepMessage :=
  (configure_wired (pipelineInit_wired (pipelineInit_shipped wireCodec))
    certikos_setup).routesKeepMessage

theorem certikosPipeline_opsKeepRouting : certikosPipeline.OpsKeepRouting := by
  have hsource : ∀ i, (certikosPipeline.sources i).transform.isSome = false := by decide
  have hsink : ∀ k, (certikosPipeline.sinks k).transform.isSome = false := by decide
  apply certikosPipeline_routesKeepMessage.opsKeepRouting
  · intro i f hf
    simpa [hf] using hsource i
  · intro k f hf
    simpa [hf] using hsink k

/-- Both heartbeats cross the gateway. -/
theorem certikos_gateway_heartbeats :
    let m := finalMachine (runActions certikosEnv
      (Machine.start certikosPipeline ⟨certikosTransports.links, ()⟩ fun _ => [])
      [.spin 20, .spin 20])
    (m.world.link .uart : CertikosUartLink).written = [heartbeat] ∧
      (m.world.link .thinros : ThinrosLink).published.map (fun x => x.2.bytes) =
        [heartbeat] := by
  have hclock : ∀ world, (certikosEnv.timeUs world).2.link = world.link := fun _ => rfl
  obtain ⟨-, -, huart, -, hthinros⟩ := certikos_gateway wireCodec length_wireSendBuffer_le
    (pipelineInit_shipped wireCodec) certikos_setup certikosPipeline_opsKeepRouting
    (shippedPolicies_verdictIgnoresAttr wireCodec) hclock certikosTransports () (fun _ => [])
    [.spin 20, .spin 20]
  exact ⟨huart.written.trans (by decide +kernel), hthinros.frames.trans (by decide +kernel)⟩

end SecureGateway
