import Mathlib
import SecureGateway.Library.Merging
import SecureGateway.Forwarding
import SecureGateway.Isolation
import SecureGateway.ShippedRejections

/-!
# The gateway on streams of frames

With the transformers off the gateway is a filtering merge. The frames of the sources come in
some order; those of the vehicle leave for the other components, and those of the other
components leave for the vehicle unless the shipped policies block them, all in that order,
each as received but for the zeros at the end of its payload.

## Implementation notes

How the bytes of the sources are split over rounds only shows in the order of the merge. A
decoder reads the payload zero-extended, so that whether a frame is blocked depends on the
frame alone.
-/

namespace SecureGateway

open Library

variable {W G V : Type}

/-! ### The abstract gateway -/

/-- What the decoders of the library read: the payload with the zeros they add to it. -/
def MavlinkCodec.ReadsExtended (codec : MavlinkCodec) : Prop :=
  ∀ msg msg' : MavlinkMessage, (∀ i, msg.extended i = msg'.extended i) →
    codec.commandLongDecode msg = codec.commandLongDecode msg' ∧
      codec.paramSetDecode msg = codec.paramSetDecode msg'

/-- The way a frame of a source may take: telemetry to the other components, and commands that
are not blocked to the vehicle. -/
def Passes (codec : MavlinkCodec) (policyEnabled : Bool) (k : Fin maxSinks)
    (x : Fin maxSources × Frame) : Prop :=
  x.1.val = SourceType.vmc.id ∧ (k.val = SinkType.legacy.id ∨ k.val = SinkType.enclave.id) ∨
    (x.1.val = SourceType.legacy.id ∨ x.1.val = SourceType.enclave.id) ∧
      k.val = SinkType.vmc.id ∧ ¬ (policyEnabled ∧ ShippedBlocks codec x.2.stored)

open scoped Classical in
/-- What leaves at a sink of the frames that arrive. -/
noncomputable def filterMerge (codec : MavlinkCodec) (policyEnabled : Bool) (k : Fin maxSinks)
    (arrived : List (Fin maxSources × Frame)) : List (List UInt8) :=
  (arrived.filter fun x => Passes codec policyEnabled k x).map fun x => x.2.trim.bytes

/-- Telemetry is all that leaves for the other components. -/
theorem filterMerge_telemetry {codec : MavlinkCodec} {policyEnabled : Bool} {k : Fin maxSinks}
    (hk : k.val = SinkType.legacy.id ∨ k.val = SinkType.enclave.id) {vmc : Fin maxSources}
    (hvmc : vmc.val = SourceType.vmc.id) {arrived : List (Fin maxSources × Frame)}
    {streams : Fin maxSources → List Frame} (h : Merges arrived streams) :
    filterMerge codec policyEnabled k arrived =
      (streams vmc).map fun frame => frame.trim.bytes := by
  classical
  have hself : k.val ≠ SinkType.vmc.id := by
    rcases hk with hk | hk <;> simp [hk, SinkType.id]
  have hkeep (x : Fin maxSources × Frame) :
      decide (Passes codec policyEnabled k x) = true ↔ x.1 = vmc := by
    rw [decide_eq_true_iff]
    constructor
    · rintro (⟨hx, -⟩ | ⟨-, hx, -⟩)
      · exact Fin.ext (hx.trans hvmc.symm)
      · exact absurd hx hself
    · intro hx
      exact Or.inl ⟨hx ▸ hvmc, hk⟩
  have hstream := h.filter_tag hkeep
  unfold filterMerge
  rw [← hstream, List.map_map]
  rfl

/-! ### Frames to messages -/

/-- Two records of one frame are blocked alike. -/
theorem shippedBlocks_stored {codec : MavlinkCodec} (hreads : codec.ReadsExtended)
    {frame : Frame} {msg : MavlinkMessage} (h : frame.StoredAs msg) :
    ShippedBlocks codec msg ↔ ShippedBlocks codec frame.stored := by
  have hstored := frame.storedAs_stored
  have hextended (i : Nat) : msg.extended i = frame.stored.extended i := by
    simp only [MavlinkMessage.extended, h.toNat_len, hstored.toNat_len]
    split
    · rename_i hi
      rw [h.payload i hi, hstored.payload i hi]
    · rfl
  obtain ⟨hlong, hparam⟩ := hreads msg frame.stored hextended
  have hmsgid : msg.msgid = frame.stored.msgid := h.msgid.trans hstored.msgid.symm
  rw [ShippedBlocks, ShippedBlocks, hmsgid, hlong, hparam]

/-- A source that delivers frames and nothing else has exactly these delivered. -/
theorem replay_all_frames {env : Env W G} {crcExtra : BitVec 24 → UInt8} {view : Nat → G → V}
    {Idle : V → Prop} (haccepts : env.parser.AcceptsFrames crcExtra view Idle)
    {s : Fin maxSources} {m m' : Machine W G} (frames : List Frame)
    (hidle : Idle (view s.val m.parser)) (hintact : ∀ frame ∈ frames, frame.Intact crcExtra)
    (h : replay env s m (frames.flatMap Frame.bytes) = .ok m') :
    ∃ ds, deliveriesOf s m'.log = deliveriesOf s m.log ++ ds ∧
      List.Forall₂ (fun frame d => frame.StoredAs d.parsed.msg) frames ds := by
  induction frames generalizing m with
  | nil =>
      cases h
      exact ⟨[], (List.append_nil _).symm, List.Forall₂.nil⟩
  | cons frame frames ih =>
      rw [List.flatMap_cons, replay_append] at h
      obtain ⟨n, hfirst, hrest⟩ := bind_eq_ok_iff.mp h
      obtain ⟨hnext, d, hd, hstored⟩ :=
        exists_delivery haccepts hidle (hintact frame List.mem_cons_self) hfirst
      obtain ⟨ds, hds, hall⟩ := ih hnext
        (fun frame hframe => hintact frame (List.mem_cons_of_mem _ hframe)) hrest
      refine ⟨d :: ds, ?_, List.Forall₂.cons hstored hall⟩
      rw [hds, hd, List.append_assoc]
      rfl

theorem run_all_frames {env : Env W G} {crcExtra : BitVec 24 → UInt8} {view : Nat → G → V}
    {Idle : V → Prop} (hchannels : env.parser.PerChannel view)
    (haccepts : env.parser.AcceptsFrames crcExtra view Idle) {p : Pipeline W}
    (hroutes : p.RoutesKeepMessage) (world : W) (parser : G) (fuels : List Nat)
    (s : Fin maxSources) (frames : List Frame) (hidle : Idle (view s.val parser))
    (hintact : ∀ frame ∈ frames, frame.Intact crcExtra) :
    let log := (finalMachine (runActions env (Machine.start p world parser) (spins fuels))).log
    bytesOf s log = frames.flatMap Frame.bytes →
      List.Forall₂ (fun frame d => frame.StoredAs d.parsed.msg) frames (deliveriesOf s log) := by
  intro log hbytes
  let start := Machine.start p world parser
  have hstart : Replayed env view s start start := ⟨hroutes, start, rfl, ⟨rfl, rfl, rfl, rfl⟩⟩
  obtain ⟨m, hreplay, hagrees⟩ :=
    ((replayed_byteInvariant hchannels s start).spins hstart fuels).replay
  have hfed : replay env s start (frames.flatMap Frame.bytes) = .ok m :=
    (congrArg (replay env s start) hbytes).symm.trans hreplay
  obtain ⟨ds, hds, hall⟩ := replay_all_frames haccepts frames hidle hintact hfed
  have hturns : deliveriesOf s log = deliveriesOf s m.log :=
    congrArg (List.filterMap Turn.delivery) hagrees.turns
  rw [hturns, hds]
  exact hall

/-! ### Deliveries in their order -/

/-- The messages of a log with their sources, in the order they were completed. -/
def deliveredOrder (log : List Turn) : List (Fin maxSources × Delivery) :=
  log.filterMap fun t => t.delivery.map fun d => (t.slot, d)

theorem streamOf_deliveredOrder (s : Fin maxSources) (log : List Turn) :
    streamOf s (deliveredOrder log) = deliveriesOf s log := by
  induction log with
  | nil => rfl
  | cons t log ih =>
      unfold deliveredOrder deliveriesOf turnsOf at ih ⊢
      by_cases hs : t.slot = s
      · cases hd : t.delivery with
        | none => simp [hs, hd, ih]
        | some d =>
            subst hs
            simpa [hd, streamOf_cons_self] using ih
      · cases hd : t.delivery with
        | none => simp [hs, hd, ih]
        | some d => simpa [hs, hd, streamOf_cons_other hs] using ih

/-- A mediated run whose flags stay what they were when it began. -/
structure SteadyRun (start : Pipeline W) (m : Machine W G) : Prop where
  mediated : Mediated start m
  asParsed : HandedAsParsed m
  policyEnabled : m.pipeline.policyEnabled = start.policyEnabled
  transformEnabled : m.pipeline.transformEnabled = start.transformEnabled
  flags : ∀ t ∈ m.log, ∀ d, t.delivery = some d →
    d.policyEnabled = start.policyEnabled ∧ d.transformEnabled = start.transformEnabled

theorem steadyRun_start {p : Pipeline W} (hroutes : p.RoutesKeepMessage) (world : W)
    (parser : G) : SteadyRun p (Machine.start p world parser) := by
  refine ⟨mediated_start p world parser, ⟨hroutes, ?_⟩, rfl, rfl, ?_⟩
  · intro t ht
    cases ht
  · intro t ht
    cases ht

theorem steadyRun_byteInvariant {start : Pipeline W} (hconf : start.Configured)
    (hops : start.OpsKeepRouting)
    (hverdict : ∀ policy ∈ start.policies.policies, policy.VerdictIgnoresAttr)
    (env : Env W G) : ByteInvariant env (SteadyRun start) where
  frame _ _ _ _ hm :=
    ⟨⟨hm.mediated.setup, hm.mediated.log⟩, ⟨hm.asParsed.routes, hm.asParsed.log⟩,
      hm.policyEnabled, hm.transformEnabled, hm.flags⟩
  byte m i b m' hm hconn h := by
    obtain ⟨cur, hcur⟩ := spinByte_pipeline h
    refine ⟨hm.mediated.spinByte hconf hops hverdict hconn h,
      (handedAsParsed_byteInvariant env).byte m i b m' hm.asParsed hconn h,
      hcur ▸ hm.policyEnabled, hcur ▸ hm.transformEnabled, ?_⟩
    rcases spinByte_cases h with ⟨d, r, -, hdeliver, rfl⟩ | ⟨-, rfl⟩
    · rw [List.forall_mem_append, List.forall_mem_singleton]
      refine ⟨hm.flags, ?_⟩
      intro d' hd'
      cases hd'
      obtain ⟨-, -, -, rfl⟩ := deliver_eq_ok_iff.mp hdeliver
      exact ⟨hm.policyEnabled, hm.transformEnabled⟩
    · rw [List.forall_mem_append, List.forall_mem_singleton]
      refine ⟨hm.flags, ?_⟩
      intro d hd
      cases hd

theorem nodup_expectedSinks (start : Pipeline W) (slot : Fin maxSources) (d : Delivery) :
    (expectedSinks start slot d).Nodup := by
  unfold expectedSinks
  split
  · exact (List.nodup_finRange maxSinks).filter _
  · exact List.nodup_nil

/-- A sink is handed a delivered message once if it is due to get it, and else not at all. -/
theorem Turn.Mediated.calls_on {start : Pipeline W} {t : Turn} (ht : t.Mediated start)
    {d : Delivery} (hd : t.delivery = some d)
    (hmsg : ∀ call ∈ d.calls, call.2.msg = d.parsed.msg) (k : Fin maxSinks) :
    (t.calls.filter fun c => c.1 = k).map (fun c => c.2.msg) =
      if k ∈ expectedSinks start t.slot d then [d.parsed.msg] else [] := by
  have hcalls : d.calls.map Prod.fst = expectedSinks start t.slot d := by
    simpa [Turn.calls, Turn.expected, hd] using ht.calls
  have hcount : (d.calls.filter fun c => c.1 = k).length =
      (expectedSinks start t.slot d).count k := by
    rw [← hcalls, List.count_eq_length_filter, List.filter_map, List.length_map]
    rfl
  have hsame : (d.calls.filter fun c => c.1 = k).map (fun c => c.2.msg) =
      List.replicate ((expectedSinks start t.slot d).count k) d.parsed.msg := by
    rw [← hcount, List.map_eq_replicate_iff]
    intro c hc
    exact hmsg c (List.mem_of_mem_filter hc)
  simp only [Turn.calls, hd, hsame]
  split
  · rename_i hmem
    rw [List.count_eq_one_of_mem (nodup_expectedSinks start t.slot d) hmem]
    rfl
  · rename_i hnot
    rw [List.count_eq_zero_of_not_mem hnot]
    rfl

/-- A sink is handed the messages that are due to it, in the order they were completed. -/
theorem callsOn_deliveredOrder {start : Pipeline W} {log : List Turn}
    (hlog : ∀ t ∈ log, t.Mediated start)
    (hmsg : ∀ t ∈ log, ∀ d, t.delivery = some d → ∀ call ∈ d.calls, call.2.msg = d.parsed.msg)
    (k : Fin maxSinks) :
    (callsOn k log).map (fun c => c.2.msg) =
      ((deliveredOrder log).filter fun x => k ∈ expectedSinks start x.1 x.2).map
        fun x => x.2.parsed.msg := by
  induction log with
  | nil => rfl
  | cons t log ih =>
      have hrest := ih (fun u hu => hlog u (List.mem_cons_of_mem t hu))
        (fun u hu => hmsg u (List.mem_cons_of_mem t hu))
      rw [callsOn_cons, List.map_append, hrest]
      cases hd : t.delivery with
      | none => simp [Turn.calls, deliveredOrder, hd]
      | some d =>
          rw [(hlog t List.mem_cons_self).calls_on hd (hmsg t List.mem_cons_self d hd)]
          by_cases hk : k ∈ expectedSinks start t.slot d
          · simp [deliveredOrder, hd, hk]
          · simp [deliveredOrder, hd, hk]

/-! ### What is due to a sink -/

theorem admits_iff {policyEnabled : Bool} {policies : List SecurityPolicy} {msg : Message}
    (hclear : msg.sinks.has SinkType.discard.id = false) :
    admits policyEnabled policies msg = true ↔
      ¬ (policyEnabled ∧ policies.any (fun policy => policy.rejects msg) = true) := by
  rw [admits, hclear]
  cases policyEnabled <;> simp

theorem defaultRouteTable_discard (i : Fin maxSources) :
    (defaultRouteTable.table i).has SinkType.discard.id = false := by
  revert i
  decide

/-- What is due to a sink is what may pass to it. -/
theorem mem_expectedSinks_iff {codec : MavlinkCodec} (hreads : codec.ReadsExtended)
    {start : Pipeline W} (hpolicies : start.policies.policies = shippedPolicies codec)
    {k : Fin maxSinks} (hroute : (start.sinks k).route.isSome) {slot : Fin maxSources}
    {d : Delivery} (hdisabled : d.transformEnabled = false) {frame : Frame}
    (hstored : frame.StoredAs d.parsed.msg) :
    k ∈ expectedSinks start slot d ↔ Passes codec d.policyEnabled k (slot, frame) := by
  have hshown : completedMessage start slot d =
      { d.parsed with source := slot.val, sinks := defaultRouteTable.table slot } := by
    simp only [completedMessage, shownRecord, hdisabled, applyTransform]
    split <;> rfl
  have hclear : (completedMessage start slot d).sinks.has SinkType.discard.id = false := by
    rw [hshown]
    exact defaultRouteTable_discard slot
  have hmem : k ∈ expectedSinks start slot d ↔
      admits d.policyEnabled start.policies.policies (completedMessage start slot d) = true ∧
        (defaultRouteTable.table slot).has k.val = true := by
    unfold expectedSinks
    split
    · rename_i hyes
      simp [hyes, hroute]
    · rename_i hno
      simp [hno]
  rw [hmem, admits_iff hclear, hpolicies, hshown, defaultRouteTable_has]
  constructor
  · rintro ⟨hok, ⟨hvmc, hk⟩ | ⟨hother, hk⟩⟩
    · exact Or.inl ⟨hvmc, hk⟩
    · refine Or.inr ⟨hother, hk, ?_⟩
      rintro ⟨henabled, hblocks⟩
      apply hok
      refine ⟨henabled, (shippedPolicies_any_rejects_iff codec hother).mpr ?_⟩
      exact (shippedBlocks_stored hreads hstored).mpr hblocks
  · rintro (⟨hvmc, hk⟩ | ⟨hother, hk, hok⟩)
    · refine ⟨?_, Or.inl ⟨hvmc, hk⟩⟩
      rintro ⟨-, hrejects⟩
      rw [shippedPolicies_any_rejects_vmc codec hvmc] at hrejects
      cases hrejects
    · refine ⟨?_, Or.inr ⟨hother, hk⟩⟩
      rintro ⟨henabled, hrejects⟩
      have hblocks := (shippedPolicies_any_rejects_iff codec hother).mp hrejects
      exact hok ⟨henabled, (shippedBlocks_stored hreads hstored).mp hblocks⟩

/-- The gateway is a filtering merge. In every run of rounds with the transformers off and with
the shipped policies on or off, in which each source delivers frames, in whatever pieces and
whatever order: the frames are delivered in the order of some merge of the streams, and what
every sink is handed are the frames of this merge that may pass to it, each once, as received
but for the zeros at the end of its payload. So the other components are handed the telemetry
of the vehicle, frame by frame, whatever anyone else sends. -/
theorem filter_merge {codec : MavlinkCodec}
    (hsends : codec.msgToSendBuffer = mavlinkMsgToSendBuffer) (hreads : codec.ReadsExtended)
    {prior initial p : Pipeline W} {setup : List (SetupOp W)}
    (hinit : pipelineInit (securityPolicyInit codec) prior = .ok initial)
    (hsetup : configure initial setup = .ok p)
    (hpolicies : p.policies.policies = shippedPolicies codec)
    (hops : p.OpsKeepRouting) (hroutes : p.RoutesKeepMessage)
    (hdisabled : p.transformEnabled = false)
    {env : Env W G} {crcExtra : BitVec 24 → UInt8} {view : Nat → G → V} {Idle : V → Prop}
    (hchannels : env.parser.PerChannel view)
    (haccepts : env.parser.AcceptsFrames crcExtra view Idle)
    (world : W) (parser : G) (hidle : ∀ s, Idle (view s parser)) (fuels : List Nat)
    (streams : Fin maxSources → List Frame)
    (hintact : ∀ s, ∀ frame ∈ streams s, frame.Intact crcExtra) :
    let log := (finalMachine (runActions env (Machine.start p world parser) (spins fuels))).log
    (∀ s, bytesOf s log = (streams s).flatMap Frame.bytes) →
      ∃ arrived : List (Fin maxSources × Frame), Merges arrived streams ∧
        List.Forall₂ (fun x y => x.1 = y.1 ∧ x.2.StoredAs y.2.parsed.msg) arrived
          (deliveredOrder log) ∧
        ∀ k, (p.sinks k).route.isSome →
          (callsOn k log).map (fun c => codec.msgToSendBuffer c.2.msg) =
              filterMerge codec p.policyEnabled k arrived ∧
            (k.val = SinkType.legacy.id ∨ k.val = SinkType.enclave.id →
              ∀ vmc : Fin maxSources, vmc.val = SourceType.vmc.id →
              (callsOn k log).map (fun c => codec.msgToSendBuffer c.2.msg) =
                (streams vmc).map fun frame => frame.trim.bytes) := by
  classical
  intro log hbytes
  have hconf := configure_configured (pipelineInit_configured hinit) hsetup
  have hverdict : ∀ policy ∈ p.policies.policies, policy.VerdictIgnoresAttr := by
    rw [hpolicies]
    exact shippedPolicies_verdictIgnoresAttr codec
  have hsteady := (steadyRun_byteInvariant hconf hops hverdict env).spins
    (steadyRun_start hroutes world parser) fuels
  have hframes (s : Fin maxSources) : List.Forall₂ (fun frame d => frame.StoredAs d.parsed.msg)
      (streams s) (streamOf s (deliveredOrder log)) := by
    rw [streamOf_deliveredOrder]
    exact run_all_frames hchannels haccepts hroutes world parser fuels s (streams s)
      (hidle s.val) (hintact s) (hbytes s)
  obtain ⟨arrived, hmerge, hall⟩ := exists_merges hframes
  have hflags : ∀ x ∈ deliveredOrder log,
      x.2.policyEnabled = p.policyEnabled ∧ x.2.transformEnabled = p.transformEnabled := by
    intro x hx
    obtain ⟨t, ht, hx⟩ := List.mem_filterMap.mp hx
    obtain ⟨d, hd, rfl⟩ := Option.map_eq_some_iff.mp hx
    exact hsteady.flags t ht d hd
  have hasParsed : ∀ t ∈ log, ∀ d, t.delivery = some d →
      ∀ call ∈ d.calls, call.2.msg = d.parsed.msg := by
    intro t ht d hd
    exact hsteady.asParsed.log t ht d hd ((hsteady.flags t ht d hd).2.trans hdisabled)
  have houtput (k : Fin maxSinks) (hroute : (p.sinks k).route.isSome) :
      (callsOn k log).map (fun c => codec.msgToSendBuffer c.2.msg) =
        filterMerge codec p.policyEnabled k arrived := by
    have hcalls := congrArg (List.map codec.msgToSendBuffer)
      (callsOn_deliveredOrder hsteady.mediated.log hasParsed k)
    rw [List.map_map, List.map_map] at hcalls
    have hback : List.Forall₂
        (fun (y : Fin maxSources × Delivery) (x : Fin maxSources × Frame) =>
          x.1 = y.1 ∧ x.2.StoredAs y.2.parsed.msg) (deliveredOrder log) arrived :=
      hall.flip
    refine hcalls.trans (filter_map_eq_of_forall₂
      ((List.forall₂_and_left _ _).mpr ⟨hflags, hback⟩) ?_ ?_)
    · rintro ⟨slot, d⟩ ⟨slot', frame⟩ ⟨⟨henabled, htransform⟩, hslot, hstored⟩
      dsimp only at henabled htransform hslot hstored
      subst hslot
      rw [decide_eq_decide, mem_expectedSinks_iff hreads hpolicies hroute
        (htransform.trans hdisabled) hstored, henabled]
    · rintro ⟨slot, d⟩ ⟨slot', frame⟩ ⟨-, -, hstored⟩
      exact (congrFun hsends d.parsed.msg).trans hstored.sent
  refine ⟨arrived, hmerge, hall, fun k hroute => ⟨houtput k hroute, ?_⟩⟩
  intro hk vmc hvmc
  rw [houtput k hroute]
  exact filterMerge_telemetry hk hvmc hmerge

theorem framesCodec_readsExtended : framesCodec.ReadsExtended := by
  intro msg msg' h
  constructor
  · simp [framesCodec, wireCodec, floatField, h]
  · simp [framesCodec, wireCodec, floatField, h]

theorem payload_le_of_short {payload : List UInt8} (h : payload.length ≤ 4) :
    payload.length ≤ 255 :=
  h.trans (by decide)

/-- An unsigned MAVLink 2 memory report with the checksum it calls for. -/
def meminfoFrame : Frame :=
  let frame : Frame := {
    version := .mavlink2 0 msgIdMeminfo none
    seq := 0
    sysid := 1
    compid := 1
    payload := [1, 2, 3, 4]
    payload_le := payload_le_of_short (Nat.le_refl 4)
    checksum := 0 }
  { frame with checksum := crcFrame frame.body (crcExtraOf frame.msgid) }

/-- A heartbeat of two bytes of payload. -/
def shortHeartbeat : Frame := heartbeatFrame [0, 7] (payload_le_of_short (Nat.le_add_left 2 2))

/-- The vehicle sends a heartbeat, the legacy components a memory report and a heartbeat. -/
def crossingStreams (slot : Fin maxSources) : List Frame :=
  if slot.val = SourceType.vmc.id then [shortHeartbeat]
  else if slot.val = SourceType.legacy.id then [meminfoFrame, shortHeartbeat]
  else []

/-- The log of two rounds in which the frames cross. -/
def crossingLog : List Turn :=
  (finalMachine (runActions framesEnv (Machine.start triangle
    (fun slot => if h : slot < maxSources then (crossingStreams ⟨slot, h⟩).flatMap Frame.bytes
      else []) fun _ => []) (spins [40, 1]))).log

/-- Both heartbeats cross, the memory report does not. -/
theorem filter_merge_heartbeats :
    (callsOn ⟨SinkType.legacy.id, by decide⟩ crossingLog).map
        (fun c => framesCodec.msgToSendBuffer c.2.msg) = [shortHeartbeat.bytes] ∧
      (callsOn ⟨SinkType.vmc.id, by decide⟩ crossingLog).map
        (fun c => framesCodec.msgToSendBuffer c.2.msg) = [shortHeartbeat.bytes] := by
  have hintact (s : Fin maxSources) : ∀ frame ∈ crossingStreams s, frame.Intact crcExtraOf := by
    intro frame hframe
    unfold crossingStreams at hframe
    split at hframe
    · obtain rfl := List.mem_singleton.mp hframe
      rfl
    · split at hframe
      · rcases List.mem_cons.mp hframe with rfl | hframe
        · rfl
        · obtain rfl := List.mem_singleton.mp hframe
          rfl
      · cases hframe
  have hdisabled : triangle.transformEnabled = false := rfl
  have hbytes : ∀ s, bytesOf s crossingLog = (crossingStreams s).flatMap Frame.bytes := by
    decide +kernel
  obtain ⟨arrived, -, -, hsinks⟩ := filter_merge
    (show framesCodec.msgToSendBuffer = mavlinkMsgToSendBuffer from rfl)
    framesCodec_readsExtended (pipelineInit_shipped framesCodec) triangle_setup rfl
    triangle_opsKeepRouting triangle_routesKeepMessage hdisabled
    (show framesEnv.parser.PerChannel _ from framesParser_perChannel crcExtraOf)
    (framesParser_acceptsFrames crcExtraOf) _ (fun _ => []) (fun _ => rfl) [40, 1]
    crossingStreams hintact hbytes
  refine ⟨?_, by decide +kernel⟩
  have htelemetry := (hsinks ⟨SinkType.legacy.id, by decide⟩ rfl).2 (Or.inl rfl)
    ⟨SourceType.vmc.id, by decide⟩ rfl
  exact htelemetry.trans (by decide +kernel)

end SecureGateway
