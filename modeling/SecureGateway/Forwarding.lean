import SecureGateway.Frames
import SecureGateway.NonInterference
import SecureGateway.StreamSinks

/-!
# Forwarding of frames

A frame the parser accepted is sent again from the stored record. The payload is trimmed on
the way out and the checksum is the one that was received, so a sender that does not trim
has its frames forwarded with a checksum of other bytes.

## Implementation notes

With the transformers disabled a route operation is handed the record as the parser left it.
Replaying one source's bytes gives the deliveries of its frames in any run.
-/

namespace SecureGateway

open Library

variable {W G V S : Type}

/-! ### What the sinks are handed -/

/-- While the transformers are disabled every sink is handed the record as it is. -/
theorem foldl_handOver_of_disabled {p : Pipeline W} (h : p.transformEnabled = false)
    (ks : List (Fin maxSinks)) (msg : Message) (calls : List (Fin maxSinks × Message)) :
    ∀ call ∈ (ks.foldl (handOver p) (msg, calls)).2, call ∈ calls ∨ call.2 = msg := by
  have hkeep (k : Fin maxSinks) : sinkTransform p k msg = msg := by
    simp only [sinkTransform, applyTransform, h]
    split <;> rfl
  induction ks generalizing calls with
  | nil => exact fun call hcall => Or.inl hcall
  | cons k ks ih =>
      intro call hcall
      rw [List.foldl_cons, handOver, hkeep] at hcall
      by_cases hands : handsTo p msg k = true
      · rw [if_pos hands] at hcall
        rcases ih _ call hcall with hmem | hmsg
        · rcases List.mem_append.mp hmem with hold | hnew
          · exact Or.inl hold
          · rw [List.mem_singleton.mp hnew]
            exact Or.inr rfl
        · exact Or.inr hmsg
      · rw [if_neg hands] at hcall
        exact ih _ call hcall

theorem deliver_calls_msg {debug : Bool} {p : Pipeline W} (hroutes : p.RoutesKeepMessage)
    (hdisabled : p.transformEnabled = false) {i : Fin maxSources} {perf : Perf} {cur : Message}
    {world : W} {d : Delivery} {r : PushResult W}
    (h : deliver debug p i perf cur world = .ok (d, r)) :
    ∀ call ∈ d.calls, call.2.msg = cur.msg := by
  obtain ⟨perf', -, hpush, rfl⟩ := deliver_eq_ok_iff.mp h
  have hstamped : (stamped p i cur).msg = cur.msg := by
    simp only [stamped, applyTransform, hdisabled]
    split <;> rfl
  obtain ⟨hinspected, ⟨-, hcalls, -⟩ | ⟨-, st, hst, -, hcalls⟩⟩ :=
    pipelinePush_ok_cases (pipelinePush_source_lt hpush) hpush
  · intro call hcall
    rw [hcalls] at hcall
    cases hcall
  · intro call hcall
    have hloop : r.calls =
        ((List.finRange maxSinks).foldl (handOver p) (r.inspected, [])).2 :=
      hcalls.trans (congrArg Prod.snd (pushLoop_handOver hroutes hst))
    change call ∈ r.calls at hcall
    rw [hloop] at hcall
    rcases foldl_handOver_of_disabled hdisabled _ _ _ call hcall with hnone | hmsg
    · cases hnone
    · rw [hmsg, hinspected, pipelineInspect_msg]
      exact hstamped

/-- A delivery under disabled transformers handed on what was parsed. -/
def Turn.HandedAsParsed (t : Turn) : Prop :=
  ∀ d, t.delivery = some d → d.transformEnabled = false →
    ∀ call ∈ d.calls, call.2.msg = d.parsed.msg

structure HandedAsParsed (m : Machine W G) : Prop where
  routes : m.pipeline.RoutesKeepMessage
  log : ∀ t ∈ m.log, t.HandedAsParsed

theorem handedAsParsed_byteInvariant (env : Env W G) :
    ByteInvariant env (HandedAsParsed (W := W) (G := G)) where
  frame _ _ _ _ hm := ⟨hm.routes, hm.log⟩
  byte m i b m' hm _ hbyte := by
    obtain ⟨cur, hcur⟩ := spinByte_pipeline hbyte
    refine ⟨hcur ▸ hm.routes, ?_⟩
    rcases spinByte_cases hbyte with ⟨d, r, -, hdeliver, rfl⟩ | ⟨-, rfl⟩
    · rw [List.forall_mem_append, List.forall_mem_singleton]
      refine ⟨hm.log, ?_⟩
      intro d' hd' hdisabled
      cases hd'
      obtain ⟨-, -, -, rfl⟩ := deliver_eq_ok_iff.mp hdeliver
      exact deliver_calls_msg hm.routes hdisabled hdeliver
    · rw [List.forall_mem_append, List.forall_mem_singleton]
      refine ⟨hm.log, ?_⟩
      intro d hd
      cases hd

theorem handedAsParsed_flagInvariant :
    FlagInvariant (HandedAsParsed (W := W) (G := G)) :=
  fun _ _ _ hm => ⟨hm.routes, hm.log⟩

/-! ### Frames that arrive -/

/-- The deliveries of one source, in order. -/
def deliveriesOf (s : Fin maxSources) (log : List Turn) : List Delivery :=
  (turnsOf s log).filterMap Turn.delivery

theorem deliveriesOf_append_own (s : Fin maxSources) (log : List Turn) (byte : UInt8)
    (delivery : Option Delivery) :
    deliveriesOf s (log ++ [⟨s, byte, delivery⟩]) = deliveriesOf s log ++ delivery.toList := by
  rw [deliveriesOf, turnsOf_append_own, List.filterMap_append, ← deliveriesOf]
  cases delivery <;> rfl

/-- The record of a source and the parser, as the result of a parse. -/
def channelResult (s : Fin maxSources) (m : Machine W G) : ParseResult G where
  rv := .incomplete
  msg := (m.pipeline.sources s).cur.msg
  status := (m.pipeline.sources s).cur.status
  state := m.parser

/-- A machine whose source was fed bytes that completed no message. -/
structure Fed (env : Env W G) (s : Fin maxSources) (m : Machine W G) (bytes : List UInt8)
    (m' : Machine W G) : Prop where
  msg : (m'.pipeline.sources s).cur.msg = (env.parser.feed s.val (channelResult s m) bytes).msg
  status : (m'.pipeline.sources s).cur.status =
    (env.parser.feed s.val (channelResult s m) bytes).status
  parser : m'.parser = (env.parser.feed s.val (channelResult s m) bytes).state
  deliveries : deliveriesOf s m'.log = deliveriesOf s m.log

theorem replay_append (env : Env W G) (s : Fin maxSources) (m : Machine W G)
    (xs ys : List UInt8) :
    replay env s m (xs ++ ys) = (replay env s m xs >>= fun m' => replay env s m' ys) :=
  List.foldlM_append

theorem replay_singleton (env : Env W G) (s : Fin maxSources) (m : Machine W G) (b : UInt8) :
    replay env s m [b] = spinByte env s b m := by
  rw [replay, List.foldlM_cons]
  cases spinByte env s b m <;> rfl

/-- What a fed machine parses next is what the parser, fed the same bytes, makes of it. -/
theorem Fed.parseResult {env : Env W G} {s : Fin maxSources} {m m' : Machine W G}
    {bytes : List UInt8} (h : Fed env s m bytes m') (b : UInt8) :
    parseResult env s b m' = env.parser.feed s.val (channelResult s m) (bytes ++ [b]) := by
  rw [MavlinkParser.feed_append_singleton, ← h.msg, ← h.status, ← h.parser]
  rfl

theorem exists_fed {env : Env W G} {s : Fin maxSources} (m : Machine W G) (bytes : List UInt8)
    (h : ∀ before, before ≠ [] → before <+: bytes →
      (env.parser.feed s.val (channelResult s m) before).rv ≠ .ok) :
    ∃ m', replay env s m bytes = .ok m' ∧ Fed env s m bytes m' := by
  induction bytes using List.reverseRecOn with
  | nil => exact ⟨m, rfl, rfl, rfl, rfl, rfl⟩
  | append_singleton bytes b ih =>
      obtain ⟨n, hreplay, hfed⟩ := ih fun before hne hbefore =>
        h before hne (hbefore.trans (List.prefix_append bytes [b]))
      have hparse := hfed.parseResult b
      have hno : (parseResult env s b n).rv ≠ .ok := by
        rw [hparse]
        exact h _ (by simp) (List.prefix_refl _)
      have hstep : replay env s m (bytes ++ [b]) = spinByte env s b n := by
        rw [replay_append, hreplay, ok_bind, replay_singleton]
      refine ⟨_, hstep.trans (spinByte_fed hno), ?_, ?_, ?_, ?_⟩
      · simp [parsedRecord, hparse]
      · simp [parsedRecord, hparse]
      · exact congrArg ParseResult.state hparse
      · rw [deliveriesOf_append_own, hfed.deliveries]
        exact List.append_nil _

/-- A frame that arrives on a channel that waits for one is delivered as received. -/
theorem exists_delivery {env : Env W G} {crcExtra : BitVec 24 → UInt8} {view : Nat → G → V}
    {Idle : V → Prop} (haccepts : env.parser.AcceptsFrames crcExtra view Idle)
    {s : Fin maxSources} {m m' : Machine W G} {frame : Frame} (hidle : Idle (view s.val m.parser))
    (hintact : frame.Intact crcExtra) (h : replay env s m frame.bytes = .ok m') :
    Idle (view s.val m'.parser) ∧
      ∃ d, deliveriesOf s m'.log = deliveriesOf s m.log ++ [d] ∧
        frame.StoredAs d.parsed.msg := by
  obtain ⟨bytes, b, hlast⟩ := frame.exists_bytes_concat
  have hbegins : bytes <+: frame.bytes := by
    rw [hlast]
    exact List.prefix_append bytes [b]
  have hproper : bytes ≠ frame.bytes := by
    rw [hlast]
    simp
  have hnone (before : List UInt8) (hne : before ≠ []) (hbefore : before <+: bytes) :
      (env.parser.feed s.val (channelResult s m) before).rv ≠ .ok := by
    have hshort : before ≠ frame.bytes := by
      rintro rfl
      exact hproper (hbegins.eq_of_length_le hbefore.length_le)
    rw [haccepts.before s.val (channelResult s m) frame before hidle hintact hne
      (hbefore.trans hbegins) hshort]
    exact fun hok => Framing.noConfusion hok
  obtain ⟨n, hreplay, hfed⟩ := exists_fed m bytes hnone
  obtain ⟨hok, hstored, hnext⟩ :=
    haccepts.complete s.val (channelResult s m) frame hidle hintact
  have hparse := hfed.parseResult b
  rw [hlast, replay_append, hreplay, ok_bind, replay_singleton] at h
  rw [hlast] at hok hstored hnext
  rw [← hparse] at hok hstored hnext
  rcases spinByte_cases h with ⟨d, r, -, hdeliver, rfl⟩ | ⟨hno, -⟩
  · obtain ⟨perf, -, -, hd⟩ := deliver_eq_ok_iff.mp hdeliver
    refine ⟨hnext, d, ?_, ?_⟩
    · rw [deliveriesOf_append_own, hfed.deliveries]
      rfl
    · rw [hd]
      exact hstored
  · exact absurd hok hno

/-- Deliveries that are made stay made. -/
theorem replay_deliveries {env : Env W G} {s : Fin maxSources} {m m' : Machine W G}
    {bytes : List UInt8} (h : replay env s m bytes = .ok m') :
    deliveriesOf s m.log <+: deliveriesOf s m'.log := by
  let Inv (n : Machine W G) : Prop := deliveriesOf s m.log <+: deliveriesOf s n.log
  have hstep : ∀ n, ∀ b ∈ bytes, ∀ n', Inv n → spinByte env s b n = .ok n' → Inv n' := by
    intro n b _ n' hn hbyte
    rcases spinByte_cases hbyte with ⟨d, r, -, -, rfl⟩ | ⟨-, rfl⟩
    · simp only [Inv, deliveriesOf_append_own]
      exact hn.trans (List.prefix_append _ _)
    · simp only [Inv, deliveriesOf_append_own]
      exact hn.trans (List.prefix_append _ _)
  exact foldlM_invariant hstep (List.prefix_refl _) h

/-- The frames a source delivers back to back are delivered in order, each as received. -/
theorem replay_frames {env : Env W G} {crcExtra : BitVec 24 → UInt8} {view : Nat → G → V}
    {Idle : V → Prop} (haccepts : env.parser.AcceptsFrames crcExtra view Idle)
    {s : Fin maxSources} {m m' : Machine W G} (frames : List Frame) {rest : List UInt8}
    (hidle : Idle (view s.val m.parser)) (hintact : ∀ frame ∈ frames, frame.Intact crcExtra)
    (h : replay env s m (frames.flatMap Frame.bytes ++ rest) = .ok m') :
    ∃ ds more, deliveriesOf s m'.log = deliveriesOf s m.log ++ ds ++ more ∧
      List.Forall₂ (fun frame d => frame.StoredAs d.parsed.msg) frames ds := by
  induction frames generalizing m with
  | nil =>
      obtain ⟨more, hmore⟩ := replay_deliveries h
      exact ⟨[], more, by rw [List.append_nil, hmore], List.Forall₂.nil⟩
  | cons frame frames ih =>
      rw [List.flatMap_cons, List.append_assoc, replay_append] at h
      obtain ⟨n, hfirst, hrest⟩ := bind_eq_ok_iff.mp h
      obtain ⟨hnext, d, hd, hstored⟩ :=
        exists_delivery haccepts hidle (hintact frame List.mem_cons_self) hfirst
      obtain ⟨ds, more, hds, hall⟩ := ih hnext
        (fun frame hframe => hintact frame (List.mem_cons_of_mem _ hframe)) hrest
      refine ⟨d :: ds, more, ?_, List.Forall₂.cons hstored hall⟩
      rw [hds, hd, List.append_assoc _ [d] ds]
      rfl

/-- In any run, whatever the other sources deliver in between, the frames of a source are
delivered in order, each as received. -/
theorem run_frames {env : Env W G} {crcExtra : BitVec 24 → UInt8} {view : Nat → G → V}
    {Idle : V → Prop} (hchannels : env.parser.PerChannel view)
    (haccepts : env.parser.AcceptsFrames crcExtra view Idle) {p : Pipeline W}
    (hroutes : p.RoutesKeepMessage) (world : W) (parser : G) (fuels : List Nat)
    (s : Fin maxSources) (frames : List Frame) (rest : List UInt8)
    (hidle : Idle (view s.val parser)) (hintact : ∀ frame ∈ frames, frame.Intact crcExtra) :
    let log := (finalMachine (runActions env (Machine.start p world parser) (spins fuels))).log
    bytesOf s log = frames.flatMap Frame.bytes ++ rest →
      ∃ ds more, deliveriesOf s log = ds ++ more ∧
        List.Forall₂ (fun frame d => frame.StoredAs d.parsed.msg) frames ds := by
  intro log hbytes
  let start := Machine.start p world parser
  have hstart : Replayed env view s start start := ⟨hroutes, start, rfl, ⟨rfl, rfl, rfl, rfl⟩⟩
  obtain ⟨m, hreplay, hagrees⟩ :=
    ((replayed_byteInvariant hchannels s start).spins hstart fuels).replay
  have hfed : replay env s start (frames.flatMap Frame.bytes ++ rest) = .ok m :=
    (congrArg (replay env s start) hbytes).symm.trans hreplay
  obtain ⟨ds, more, hds, hall⟩ := replay_frames haccepts frames hidle hintact hfed
  refine ⟨ds, more, ?_, hall⟩
  calc
    deliveriesOf s log = deliveriesOf s m.log :=
      congrArg (List.filterMap Turn.delivery) hagrees.turns
    _ = ds ++ more := hds

/-! ### Frames that leave -/

/-- What a sink writes of a message when its system call takes all of it. -/
def StreamSink.written (M : StreamSink S) (codec : MavlinkCodec) (sink : S)
    (msg : MavlinkMessage) : List UInt8 :=
  (M.accepted (M.route sink msg (some (codec.msgToSendBuffer msg).length)).2).drop
    (M.accepted sink).length

theorem StreamSink.Lawful.written_eq {M : StreamSink S} {codec : MavlinkCodec}
    (laws : M.Lawful codec) {sink : S} (hopen : M.isOpen sink) (msg : MavlinkMessage) :
    M.written codec sink msg = codec.msgToSendBuffer msg := by
  let call : RouteCall codec :=
    { msg := msg
      sent := some (codec.msgToSendBuffer msg).length
      le_length := fun n hn => (Option.some.inj hn).ge }
  have haccepts := laws.accepts sink call hopen
  simp only [call, Option.getD_some, List.take_length] at haccepts
  rw [StreamSink.written, haccepts, List.drop_left]

/-- The checksum of the bytes is right, and a channel that waits for a frame reads from them
the message and nothing before it. -/
structure Forwards (parser : MavlinkParser G) (crcExtra : BitVec 24 → UInt8)
    (view : Nat → G → V) (Idle : V → Prop) (msg : MavlinkMessage) (bytes : List UInt8) :
    Prop where
  intact : ∃ frame : Frame, frame.bytes = bytes ∧ frame.Intact crcExtra
  before : ∀ chan r before, Idle (view chan r.state) → before ≠ [] → before <+: bytes →
    before ≠ bytes → (parser.feed chan r before).rv = .incomplete
  parses : ∀ chan r, Idle (view chan r.state) → (parser.feed chan r bytes).rv = .ok ∧
    SameMessage msg (parser.feed chan r bytes).msg

/-- A stored frame is forwarded exactly when trimming leaves its CRC alone. -/
theorem Frame.StoredAs.forwards_iff {parser : MavlinkParser G} {crcExtra : BitVec 24 → UInt8}
    {view : Nat → G → V} {Idle : V → Prop} (haccepts : parser.AcceptsFrames crcExtra view Idle)
    {frame : Frame} {msg : MavlinkMessage} (h : frame.StoredAs msg)
    (hintact : frame.Intact crcExtra) :
    Forwards parser crcExtra view Idle msg (mavlinkMsgToSendBuffer msg) ↔
      frame.NothingToTrim ∨ frame.TrimKeepsCrc crcExtra := by
  rw [h.sent, ← hintact.trim_iff]
  constructor
  · intro hforwards
    obtain ⟨sent, hbytes, hsent⟩ := hforwards.intact
    cases Frame.bytes_injective hbytes
    exact hsent
  · intro htrim
    refine ⟨⟨frame.trim, rfl, htrim⟩, ?_, ?_⟩
    · intro chan r before hidle hne hbegins hproper
      exact haccepts.before chan r frame.trim before hidle htrim hne hbegins hproper
    · intro chan r hidle
      obtain ⟨hok, hstored, -⟩ := haccepts.complete chan r frame.trim hidle htrim
      exact ⟨hok, h.sameMessage hstored⟩

/-- In every run the frames of a source are delivered as received. Of a frame the parser
accepted while the transformers are disabled every sink writes a frame with a right checksum
that is read back as the same message exactly when there is nothing to trim, or the frame
happens to have the same CRC with and without the zeros that end its payload. -/
theorem forwardsValidFrames_iff {env : Env W G} {crcExtra : BitVec 24 → UInt8}
    {view : Nat → G → V} {Idle : V → Prop} (hchannels : env.parser.PerChannel view)
    (haccepts : env.parser.AcceptsFrames crcExtra view Idle) {codec : MavlinkCodec}
    (hsends : codec.msgToSendBuffer = mavlinkMsgToSendBuffer) {p : Pipeline W}
    (hroutes : p.RoutesKeepMessage) (world : W) (parser : G) :
    (∀ fuels s frames rest,
      let log := (finalMachine (runActions env (Machine.start p world parser) (spins fuels))).log
      Idle (view s.val parser) → (∀ frame ∈ frames, frame.Intact crcExtra) →
      bytesOf s log = frames.flatMap Frame.bytes ++ rest →
        ∃ ds more, deliveriesOf s log = ds ++ more ∧
          List.Forall₂ (fun frame d => frame.StoredAs d.parsed.msg) frames ds) ∧
    ∀ actions, ∀ t ∈ (finalMachine (runActions env (Machine.start p world parser) actions)).log,
      ∀ d, t.delivery = some d → d.transformEnabled = false →
      ∀ frame : Frame, frame.Intact crcExtra → frame.StoredAs d.parsed.msg →
      ∀ call ∈ d.calls, ∀ {S : Type} (M : StreamSink S), M.Lawful codec →
      ∀ sink, M.isOpen sink →
        (Forwards env.parser crcExtra view Idle d.parsed.msg
            (M.written codec sink call.2.msg) ↔
          frame.NothingToTrim ∨ frame.TrimKeepsCrc crcExtra) := by
  constructor
  · intro fuels s frames rest log hidle hintact
    exact run_frames hchannels haccepts hroutes world parser fuels s frames rest hidle hintact
  · intro actions t ht d hd hdisabled frame hintact hstored call hcall S M laws sink hopen
    have hstart : HandedAsParsed (Machine.start p world parser) :=
      ⟨hroutes, fun t ht => absurd ht List.not_mem_nil⟩
    have hrun := (handedAsParsed_byteInvariant env).runActions handedAsParsed_flagInvariant
      hstart actions
    rw [laws.written_eq hopen, hrun.log t ht d hd hdisabled call hcall, hsends]
    exact hstored.forwards_iff haccepts hintact

theorem framesParser_perChannel (crcExtra : BitVec 24 → UInt8) :
    (framesParser crcExtra).PerChannel fun chan (buffers : Nat → List UInt8) => buffers chan where
  own chan byte msg status buffers buffers' h := by
    simp only [framesParser, h]
    split
    · simp
    · split
      · split <;> simp
      · simp
  other chan chan' byte msg status buffers hne := by
    simp only [framesParser]
    split
    · simp [hne]
    · split
      · split <;> simp [hne]
      · simp [hne]

def framesEnv : Env (Nat → List UInt8) (Nat → List UInt8) :=
  { relayEnv with parser := framesParser crcExtraOf }

def framesCodec : MavlinkCodec := { wireCodec with msgToSendBuffer := mavlinkMsgToSendBuffer }

/-- An unsigned MAVLink 2 heartbeat with the given payload and the checksum it calls for. -/
def heartbeatFrame (payload : List UInt8) (h : payload.length ≤ 255) : Frame :=
  let frame : Frame := {
    version := .mavlink2 0 0 none
    seq := 0
    sysid := 1
    compid := 1
    payload := payload
    payload_le := h
    checksum := 0 }
  { frame with checksum := crcFrame frame.body (crcExtraOf frame.msgid) }

theorem heartbeatFrame_intact {payload : List UInt8} (h : payload.length ≤ 255) :
    (heartbeatFrame payload h).Intact crcExtraOf := rfl

theorem isOpen_some (codec : MavlinkCodec) (fd : Nat) :
    (tcpMtSink codec).isOpen ⟨some fd, fun _ => 0, []⟩ := by
  intro h
  cases h

/-- The legacy link delivers a frame, the other sources nothing. -/
def linkDelivers (frame : Frame) (slot : Nat) : List UInt8 :=
  if slot = SourceType.legacy.id then frame.bytes else []

/-- The log of the relay after a round in which the legacy link delivers a frame. -/
def relayLog (frame : Frame) : List Turn :=
  (finalMachine (runActions framesEnv (Machine.start relay (linkDelivers frame) fun _ => [])
    (spins [20]))).log

/-- Every message is handed to a sink, while the transformers are disabled. -/
def handedOn (log : List Turn) : Bool :=
  log.all fun t =>
    match t.delivery with
    | some d => !d.transformEnabled && !d.calls.isEmpty
    | none => true

/-- The frame the link delivers is parsed and handed on. -/
theorem exists_call_of_handedOn {frame : Frame} (hintact : frame.Intact crcExtraOf)
    (hbytes : bytesOf ⟨SourceType.legacy.id, by decide⟩ (relayLog frame) = frame.bytes)
    (hlog : handedOn (relayLog frame) = true) :
    ∃ t ∈ relayLog frame, ∃ d, t.delivery = some d ∧ d.transformEnabled = false ∧
      frame.StoredAs d.parsed.msg ∧ ∃ call, call ∈ d.calls := by
  have hstream : bytesOf ⟨SourceType.legacy.id, by decide⟩ (relayLog frame) =
      [frame].flatMap Frame.bytes ++ [] := by
    rw [List.flatMap_singleton, List.append_nil, hbytes]
  obtain ⟨ds, more, hds, hall⟩ := run_frames
    (show framesEnv.parser.PerChannel _ from framesParser_perChannel crcExtraOf)
    (framesParser_acceptsFrames crcExtraOf) relay_routesKeepMessage (linkDelivers frame)
    (fun _ => []) [20] ⟨SourceType.legacy.id, by decide⟩ [frame] [] rfl
    (List.forall_mem_singleton.mpr hintact) hstream
  cases hall with
  | cons hstored hrest =>
      rename_i d ds
      have hmem : d ∈ deliveriesOf ⟨SourceType.legacy.id, by decide⟩ (relayLog frame) := by
        rw [relayLog, hds]
        simp
      obtain ⟨t, hturn, hd⟩ := List.mem_filterMap.mp hmem
      have ht : t ∈ relayLog frame := List.mem_of_mem_filter hturn
      have hands := List.all_eq_true.mp hlog t ht
      simp only [hd, Bool.and_eq_true, Bool.not_eq_true',
        List.isEmpty_eq_false_iff_exists_mem] at hands
      exact ⟨t, ht, d, hd, hands.1, hstored, hands.2⟩

/-- A heartbeat that has nothing to trim. -/
theorem forwardsValidFrames_heartbeat :
    ∃ t ∈ relayLog (heartbeatFrame [0, 7] (by decide)), ∃ d, t.delivery = some d ∧
      ∃ call ∈ d.calls, Forwards (framesParser crcExtraOf) crcExtraOf
        (fun chan (buffers : Nat → List UInt8) => buffers chan) (· = []) d.parsed.msg
        ((tcpMtSink framesCodec).written framesCodec ⟨some 3, fun _ => 0, []⟩ call.2.msg) := by
  obtain ⟨t, ht, d, hd, hdisabled, hstored, call, hcall⟩ :=
    exists_call_of_handedOn (show (heartbeatFrame [0, 7] (by decide)).Intact crcExtraOf from rfl)
      (by decide +kernel) (by decide +kernel)
  have hforwards := (forwardsValidFrames_iff
    (show framesEnv.parser.PerChannel _ from framesParser_perChannel crcExtraOf)
    (framesParser_acceptsFrames crcExtraOf)
    (show framesCodec.msgToSendBuffer = mavlinkMsgToSendBuffer from rfl)
    relay_routesKeepMessage _ _).2 (spins [20]) t ht d hd hdisabled _ (heartbeatFrame_intact _)
    hstored call hcall (tcpMtSink framesCodec) (tcpMtSink_lawful framesCodec) _
    (isOpen_some framesCodec 3)
  exact ⟨t, ht, d, hd, call, hcall, hforwards.mpr (Or.inl (Or.inr (by decide)))⟩

/-- A heartbeat whose payload ends with a zero byte is sent with a checksum that is not that
of the bytes sent. -/
theorem forwards_untrimmed :
    ∃ t ∈ relayLog (heartbeatFrame [7, 0] (by decide)), ∃ d, t.delivery = some d ∧
      d.transformEnabled = false ∧ (heartbeatFrame [7, 0] (by decide)).Intact crcExtraOf ∧
      (heartbeatFrame [7, 0] (by decide)).StoredAs d.parsed.msg ∧
      ∃ call ∈ d.calls, ¬ Forwards (framesParser crcExtraOf) crcExtraOf
        (fun chan (buffers : Nat → List UInt8) => buffers chan) (· = []) d.parsed.msg
        ((tcpMtSink framesCodec).written framesCodec ⟨some 3, fun _ => 0, []⟩ call.2.msg) := by
  have hintact : (heartbeatFrame [7, 0] (by decide)).Intact crcExtraOf :=
    heartbeatFrame_intact _
  obtain ⟨t, ht, d, hd, hdisabled, hstored, call, hcall⟩ :=
    exists_call_of_handedOn hintact (by decide +kernel) (by decide +kernel)
  have hstart : HandedAsParsed (Machine.start relay
      (linkDelivers (heartbeatFrame [7, 0] (by decide))) fun _ : Nat => ([] : List UInt8)) :=
    ⟨relay_routesKeepMessage, fun t ht => absurd ht List.not_mem_nil⟩
  have hrun := (handedAsParsed_byteInvariant framesEnv).runActions handedAsParsed_flagInvariant
    hstart (spins [20])
  refine ⟨t, ht, d, hd, hdisabled, hintact, hstored, call, hcall, ?_⟩
  rw [(tcpMtSink_lawful framesCodec).written_eq (isOpen_some framesCodec 3),
    hrun.log t ht d hd hdisabled call hcall]
  intro hforwards
  have hkeeps := (hstored.forwards_iff (framesParser_acceptsFrames crcExtraOf) hintact).mp hforwards
  rcases hkeeps with hnothing | hcrc
  · exact absurd hnothing (by simp [Frame.NothingToTrim, heartbeatFrame, Frame.payloadByte])
  · exact absurd hcrc (by decide +kernel)

end SecureGateway
