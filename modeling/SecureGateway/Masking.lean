import Mathlib.Data.List.Sort
import SecureGateway.Isolation
import SecureGateway.SocketGateway
import SecureGateway.SinkTransform

/-!
# The masked link

A gateway built with `USE_XOR` decodes what the vehicle sends before the policies see
it and encodes what the vehicle is handed after they have. The policies judge plain
messages only, the vehicle is sent masked ones only, and no other sink notices the
mask.

## Implementation notes

The sinks of a row are handed one record in turn, so that a transformer reaches past its
own sink unless that is the last of its row. The rows of the route table keep the sink of
the vehicle apart from the others.
-/

namespace SecureGateway

open Library

variable {W G : Type}

/-! ### Transformers at the end of their rows -/

/-- Of the sinks of a row only the last one may have a transformer. -/
def Pipeline.TransformsLast (pipeline : Pipeline W) : Prop :=
  ∀ i k k', k < k' → (defaultRouteTable.table i).has k.val →
    (defaultRouteTable.table i).has k'.val → (pipeline.sinks k).transform = none

/-- The sinks a mediated message is handed to are transparent to each other. -/
theorem isChain_transparent {p : Pipeline W} (hlast : p.TransformsLast) {i : Fin maxSources}
    {msg : Message} (hrow : ∀ k, handsTo p msg k → (defaultRouteTable.table i).has k.val) :
    ((List.finRange maxSinks).filter (handsTo p msg)).IsChain (Transparent p msg) := by
  have hsorted : ((List.finRange maxSinks).filter (handsTo p msg)).Pairwise (· < ·) :=
    (List.sortedLT_finRange maxSinks).pairwise.filter _
  apply List.Pairwise.isChain
  refine hsorted.imp_of_mem ?_
  intro k k' hk hk' hlt
  have hnone := hlast i k k' hlt (hrow k (List.of_mem_filter hk))
    (hrow k' (List.of_mem_filter hk'))
  have hsame : sinkTransform p k msg = msg := by
    simp only [sinkTransform, hnone, applyTransform]
  rw [Transparent, hsame]

theorem pipelineInspect_status (p : Pipeline W) (msg : Message) :
    (pipelineInspect p msg).status = msg.status := by
  unfold pipelineInspect
  split
  · rfl
  · rw [inspectLoop_eq]

/-- A message that went through its source's transformer before the policies saw it, and
through the transformer of each sink it was handed to, and no other, after. -/
structure Delivery.Transformed (start : Pipeline W) (slot : Fin maxSources) (d : Delivery) :
    Prop where
  msg : d.inspected.msg = (completedMessage start slot d).msg
  status : d.inspected.status = (completedMessage start slot d).status
  calls : ∀ c ∈ d.calls,
    c.2 = applyTransform d.transformEnabled (start.sinks c.1).transform d.inspected

theorem deliver_transformed {debug : Bool} {start p : Pipeline W} (hsetup : start.SameSetup p)
    (hconf : start.Configured) (hops : start.OpsKeepRouting) (hroutes : start.RoutesKeepMessage)
    (hlast : start.TransformsLast) {i : Fin maxSources} (hconn : (p.sources i).isConnected)
    {perf : Perf} {cur : Message} {world : W} {d : Delivery} {r : PushResult W}
    (h : deliver debug p i perf cur world = .ok (d, r)) : d.Transformed start i := by
  have hpconf := hsetup.configured hconf
  have hpops := hsetup.opsKeepRouting hops
  have hproutes : p.RoutesKeepMessage := by
    unfold Pipeline.RoutesKeepMessage
    rw [hsetup.sinks]
    exact hroutes
  obtain ⟨perf', -, hpush, rfl⟩ := deliver_eq_ok_iff.mp h
  have hlt : (stamped p i cur).source < maxSources := by
    rw [stamped_source hpconf hpops hconn]
    exact i.isLt
  have hpresented : presented p (stamped p i cur) =
      shownRecord start i p.transformEnabled cur := by
    obtain ⟨old, hold⟩ := hsetup.source i
    rw [presented_stamped hpconf hpops hconn, shownRecord, hold]
    rfl
  obtain ⟨hinspected, hcalls⟩ := pipelinePush_ok_cases hlt hpush
  rw [hpresented] at hinspected
  refine ⟨?_, ?_, ?_⟩
  · rw [hinspected, pipelineInspect_msg]
    rfl
  · rw [hinspected, pipelineInspect_status]
    rfl
  · intro c hc
    change c ∈ r.calls at hc
    rcases hcalls with ⟨-, hnone, -⟩ | ⟨hdisc, st, hst, -, hcalls⟩
    · rw [hnone] at hc
      cases hc
    · have hrow (k : Fin maxSinks) (hk : handsTo p r.inspected k) :
          (defaultRouteTable.table i).has k.val := by
        rw [hinspected] at hdisc
        rw [hinspected, handsTo_pipelineInspect hdisc] at hk
        exact (Bool.and_eq_true_iff.mp hk).1
      have hplast : p.TransformsLast := by
        unfold Pipeline.TransformsLast
        rw [hsetup.sinks]
        exact hlast
      have hown := (pushLoop_isolated_iff r.inspected (List.nodup_finRange maxSinks) hst).mpr
        ((isolated_iff_isChain hproutes hpops.sink r.inspected world _).mpr
          (isChain_transparent hplast hrow))
      rw [hcalls, hown] at hc
      obtain ⟨k, -, rfl⟩ := List.mem_map.mp hc
      change applyTransform p.transformEnabled (p.sinks k).transform r.inspected = _
      rw [hsetup.sinks]

/-- A mediated run whose messages went through their own transformers only. -/
structure TransformedRun (start : Pipeline W) (m : Machine W G) : Prop
    extends Mediated start m where
  transformed : ∀ t ∈ m.log, ∀ d, t.delivery = some d → d.Transformed start t.slot

theorem transformed_faultFree {start : Pipeline W} (hconf : start.Configured)
    (hops : start.OpsKeepRouting) (hroutes : start.RoutesKeepMessage)
    (hlast : start.TransformsLast)
    (hverdict : ∀ policy ∈ start.policies.policies, policy.VerdictIgnoresAttr)
    (env : Env W G) : FaultFree env (TransformedRun start) where
  frame _ _ _ _ hm := ⟨⟨hm.setup, hm.log⟩, hm.transformed⟩
  byte m i b m' hm hconn h := by
    refine ⟨hm.toMediated.spinByte hconf hops hverdict hconn h, ?_⟩
    rcases spinByte_cases h with ⟨d, r, -, hdeliver, rfl⟩ | ⟨-, rfl⟩
    · rw [List.forall_mem_append, List.forall_mem_singleton]
      refine ⟨hm.transformed, ?_⟩
      intro d' hd'
      cases hd'
      exact deliver_transformed hm.setup hconf hops hroutes hlast hconn hdeliver
    · rw [List.forall_mem_append, List.forall_mem_singleton]
      refine ⟨hm.transformed, ?_⟩
      intro d hd
      cases hd
  ready m i hm hconn := (mediated_faultFree hconf hops hverdict env).ready m i hm.toMediated hconn
  total m i b hm hconn :=
    (mediated_faultFree hconf hops hverdict env).total m i b hm.toMediated hconn

theorem transformed_flagInvariant (start : Pipeline W) :
    FlagInvariant (TransformedRun (G := G) start) := by
  intro m policyEnabled transformEnabled hm
  exact ⟨mediated_flagInvariant start m policyEnabled transformEnabled hm.toMediated,
    hm.transformed⟩

/-! ### The mask -/

/-- A registration other than of a transformer. -/
def SetupOp.Plain : SetupOp W → Prop
  | addTransformer _ _ _ => False
  | hook _ _ _ | hookStdioSink _ _ | policyRegister _ => True

/-- Nothing is transformed. -/
structure Pipeline.Plain (pipeline : Pipeline W) : Prop where
  source : ∀ i, (pipeline.sources i).transform = none
  sink : ∀ k, (pipeline.sinks k).transform = none

/-- What `main` adds with `USE_XOR`. -/
def xorTransformers (codec : MavlinkCodec) : List (SetupOp W) :=
  [.addTransformer .source SourceType.vmc.id (xorDecode codec),
    .addTransformer .sink SinkType.vmc.id (xorEncode codec)]

/-- The transformers sit at the vehicle, and nowhere else. -/
structure Pipeline.Masked (codec : MavlinkCodec) (pipeline : Pipeline W) : Prop where
  source : ∀ i, (pipeline.sources i).transform =
    if i.val = SourceType.vmc.id then some (xorDecode codec) else none
  sink : ∀ k, (pipeline.sinks k).transform =
    if k.val = SinkType.vmc.id then some (xorEncode codec) else none

theorem setupOp_plain {p q : Pipeline W} {op : SetupOp W} (hop : op.Plain) (hp : p.Plain)
    (h : op.apply p = .ok q) : q.Plain := by
  cases op with
  | hook sourceId sinkType ops =>
      obtain ⟨⟨i, sources⟩, halloc, h⟩ := bind_eq_ok_iff.mp h
      obtain ⟨⟨k, sinks⟩, hsinks, h⟩ := bind_eq_ok_iff.mp h
      obtain ⟨-, rfl⟩ := sourceAllocate_eq_ok_iff.mp halloc
      obtain ⟨-, rfl⟩ := sinkAllocate_ok hsinks
      cases h
      constructor
      · intro j
        by_cases hj : j = i
        · subst j
          simp
        · simpa [Function.update_of_ne hj] using hp.source j
      · intro j
        by_cases hj : j = k
        · subst j
          simp
        · simpa [Function.update_of_ne hj] using hp.sink j
  | hookStdioSink sinkType route =>
      obtain ⟨k, -, h⟩ := bind_eq_ok_iff.mp h
      cases h
      refine ⟨hp.source, ?_⟩
      intro j
      by_cases hj : j = k
      · subst j
        simpa using hp.sink k
      · simpa [Function.update_of_ne hj] using hp.sink j
  | addTransformer type id transform => exact hop.elim
  | policyRegister policy =>
      obtain ⟨policies, -, h⟩ := bind_eq_ok_iff.mp h
      cases h
      exact ⟨hp.source, hp.sink⟩

theorem configure_masked {codec : MavlinkCodec} {hooks : List (SetupOp W)}
    (hhooks : ∀ op ∈ hooks, op.Plain) {p q : Pipeline W} (hp : p.Plain)
    (h : configure p (hooks ++ xorTransformers codec) = .ok q) : q.Masked codec := by
  rw [configure, List.foldlM_append] at h
  obtain ⟨p₁, hfirst, h⟩ := bind_eq_ok_iff.mp h
  have hplain : p₁.Plain := by
    refine foldlM_invariant ?_ hp hfirst
    intro p op hop q hp hstep
    exact setupOp_plain (hhooks op hop) hp hstep
  cases h
  constructor
  · intro i
    by_cases hi : i.val = SourceType.vmc.id
    · obtain rfl : i = ⟨SourceType.vmc.id, by decide⟩ := Fin.ext hi
      simp
    · have hne : i ≠ ⟨SourceType.vmc.id, by decide⟩ := fun heq => hi (congrArg Fin.val heq)
      simpa [hi, Function.update_of_ne hne] using hplain.source i
  · intro k
    by_cases hk : k.val = SinkType.vmc.id
    · obtain rfl : k = ⟨SinkType.vmc.id, by decide⟩ := Fin.ext hk
      simp
    · have hne : k ≠ ⟨SinkType.vmc.id, by decide⟩ := fun heq => hk (congrArg Fin.val heq)
      simpa [hk, Function.update_of_ne hne] using hplain.sink k

/-- The sink of the vehicle is alone in its rows. -/
theorem Pipeline.Masked.transformsLast {codec : MavlinkCodec} {p : Pipeline W}
    (hp : p.Masked codec) : p.TransformsLast := by
  intro i k k' hlt hk hk'
  rw [hp.sink]
  split
  · rename_i hvmc
    rcases (defaultRouteTable_has i k).mp hk with ⟨-, hother⟩ | ⟨hi, -⟩
    · rcases hother with hother | hother <;> simp [hother, SinkType.id] at hvmc
    · rcases (defaultRouteTable_has i k').mp hk' with ⟨hi', -⟩ | ⟨-, hvmc'⟩
      · rcases hi with hi | hi <;> simp [hi, SourceType.id] at hi'
      · exact absurd (hvmc.trans hvmc'.symm) (Nat.ne_of_lt hlt)
  · rfl

theorem Pipeline.Masked.opsKeepRouting {codec : MavlinkCodec} {p : Pipeline W}
    (hp : p.Masked codec) (hroutes : p.RoutesKeepMessage) : p.OpsKeepRouting := by
  apply hroutes.opsKeepRouting
  · intro i f hf
    rw [hp.source] at hf
    split at hf
    · cases hf
      exact fun _ => ⟨rfl, rfl, rfl⟩
    · cases hf
  · intro k f hf
    rw [hp.sink] at hf
    split at hf
    · cases hf
      exact xorEncode_keepsRouting codec
    · cases hf

/-- Two messages a decoder reads alike. -/
structure SameReading (msg msg' : MavlinkMessage) : Prop where
  msgid : msg'.msgid = msg.msgid
  sysid : msg'.sysid = msg.sysid
  compid : msg'.compid = msg.compid
  payload : ∀ i, msg'.extended i = msg.extended i

/-- The mask of the last payload byte is not zero, or there is at most one byte. -/
def PlainEnd (msg : MavlinkMessage) : Prop :=
  msg.len.toNat ≤ 1 ∨ msg.payloadByte (msg.len.toNat - 1) ≠ xorKey

/-- Only the message and its status matter to the transformers. -/
theorem xorRefinalize_congr (codec : MavlinkCodec) {a b : Message} (hmsg : a.msg = b.msg)
    (hstatus : a.status = b.status) :
    (xorRefinalize codec a).msg = (xorRefinalize codec b).msg ∧
      (xorRefinalize codec a).status = (xorRefinalize codec b).status := by
  simp [xorRefinalize, hmsg, hstatus]

/-- Two records of one frame: the ids, the length and the payload bytes below it. -/
structure SameFrame (msg msg' : MavlinkMessage) : Prop where
  msgid : msg'.msgid = msg.msgid
  sysid : msg'.sysid = msg.sysid
  compid : msg'.compid = msg.compid
  len : msg'.len = msg.len
  payload : ∀ i < msg.len.toNat, msg'.payloadByte i = msg.payloadByte i

theorem SameFrame.refl (msg : MavlinkMessage) : SameFrame msg msg :=
  ⟨rfl, rfl, rfl, rfl, fun _ _ => rfl⟩

/-- What one pass leaves of a message, as the other side of the link records it. -/
theorem Refinalized.received {before after received : Message} (h : Refinalized before after)
    (hframe : SameFrame after.msg received.msg) (hmode : received.status.OutMavlink2) :
    Refinalized before received where
  msgid := hframe.msgid.trans h.msgid
  sysid := hframe.sysid.trans h.sysid
  compid := hframe.compid.trans h.compid
  len := by rw [hframe.len, h.len]
  payload := by
    intro i hi
    rw [hframe.len] at hi
    exact (hframe.payload i hi).trans (h.payload i hi)
  mode := hmode

/-- A peer that decodes what was encoded reads the message. -/
theorem sameReading_decoded {codec : MavlinkCodec} (hcodec : codec.FinalizesMavlink2)
    {msg received : Message} (hmode : msg.status.OutMavlink2) (hend : PlainEnd msg.msg)
    (hframe : SameFrame (xorEncode codec msg).msg received.msg)
    (hreceived : received.status.OutMavlink2) :
    SameReading msg.msg (xorDecode codec received).msg := by
  have hencoded : Refinalized msg received :=
    Refinalized.received (xorRefinalize_spec hcodec hmode) hframe hreceived
  have hdecoded : Refinalized received (xorDecode codec received) :=
    xorRefinalize_spec hcodec hreceived
  have hlen : received.msg.len.toNat = msg.msg.len.toNat := by
    rw [hencoded.len, mavTrimPayload_eq_self_iff]
    rcases hend with hshort | hlast
    · exact Or.inl hshort
    · by_cases hshort : msg.msg.len.toNat ≤ 1
      · exact Or.inl hshort
      · right
        rw [maskedByte, if_pos (by omega), ne_eq, xor_xorKey_eq_zero_iff]
        exact hlast
  exact ⟨hdecoded.msgid.trans hencoded.msgid, hdecoded.sysid.trans hencoded.sysid,
    hdecoded.compid.trans hencoded.compid,
    fun i => extended_of_not_trimmed hencoded hdecoded hlen i⟩

/-- A delivery through the mask. A message of the vehicle is decoded, judged as decoded and
handed on as judged; any other is judged as it came and handed, encoded, to the vehicle
alone. -/
structure Delivery.ThroughMask (codec : MavlinkCodec) (slot : Fin maxSources) (d : Delivery) :
    Prop where
  fromVehicle : slot.val = SourceType.vmc.id →
    d.inspected.msg = (if d.transformEnabled then xorDecode codec d.parsed else d.parsed).msg ∧
      ∀ c ∈ d.calls, c.1.val ≠ SinkType.vmc.id ∧ c.2.msg = d.inspected.msg
  toVehicle : slot.val ≠ SourceType.vmc.id →
    d.inspected.msg = d.parsed.msg ∧
      ∀ c ∈ d.calls, c.1.val = SinkType.vmc.id ∧
        c.2.msg = (if d.transformEnabled then xorEncode codec d.parsed else d.parsed).msg ∧
        c.2.status = (if d.transformEnabled then xorEncode codec d.parsed else d.parsed).status

theorem Delivery.Transformed.throughMask {codec : MavlinkCodec} {start : Pipeline W}
    (hmasked : start.Masked codec) {t : Turn} (ht : t.Mediated start) {d : Delivery}
    (hd : t.delivery = some d) (h : d.Transformed start t.slot) :
    d.ThroughMask codec t.slot := by
  have hrow (c : Fin maxSinks × Message) (hc : c ∈ d.calls) :
      (defaultRouteTable.table t.slot).has c.1.val := by
    apply ht.call_has
    rw [Turn.calls, hd]
    exact hc
  have hmsg := h.msg
  have hstatus := h.status
  simp only [completedMessage, shownRecord, hmasked.source] at hmsg hstatus
  constructor
  · intro hslot
    rw [if_pos hslot] at hmsg
    refine ⟨?_, ?_⟩
    · rw [hmsg]
      cases d.transformEnabled <;> rfl
    · intro c hc
      have hne : c.1.val ≠ SinkType.vmc.id := by
        intro hvmc
        rcases (defaultRouteTable_has t.slot c.1).mp (hrow c hc) with ⟨-, hother⟩ | ⟨hother, -⟩
        · rcases hother with hother | hother <;> simp [hother, SinkType.id] at hvmc
        · rcases hother with hother | hother <;> simp [hslot, SourceType.id] at hother
      have hcall := h.calls c hc
      rw [hmasked.sink, if_neg hne] at hcall
      exact ⟨hne, congrArg Message.msg hcall⟩
  · intro hslot
    rw [if_neg hslot] at hmsg hstatus
    refine ⟨hmsg, ?_⟩
    intro c hc
    have hvmc : c.1.val = SinkType.vmc.id := by
      rcases (defaultRouteTable_has t.slot c.1).mp (hrow c hc) with ⟨hvmc, -⟩ | ⟨-, hvmc⟩
      · exact absurd hvmc hslot
      · exact hvmc
    have hcall := h.calls c hc
    rw [hmasked.sink, if_pos hvmc] at hcall
    obtain ⟨hencoded, hencoded'⟩ := xorRefinalize_congr codec hmsg hstatus
    refine ⟨hvmc, ?_, ?_⟩
    · rw [hcall]
      cases d.transformEnabled with
      | false => exact hmsg
      | true => exact hencoded
    · rw [hcall]
      cases d.transformEnabled with
      | false => exact hstatus
      | true => exact hencoded'

/-- The masked link. In every run, with the mask switched on or off at any time: policies judge
what the vehicle sent as decoded and what the others sent as it came; the vehicle is handed
every message encoded, no other sink any; and where a payload does not end in the key, what
one side encoded and the other decodes reads as what was sent, in either direction, whatever
else the two sides keep of the link. -/
theorem masked_link {codec : MavlinkCodec}
    {securityPolicyInit : SecurityPolicyMgmt → Except Fault SecurityPolicyMgmt}
    {prior initial p : Pipeline W} {hooks : List (SetupOp W)}
    (hhooks : ∀ op ∈ hooks, op.Plain)
    (hinit : pipelineInit securityPolicyInit prior = .ok initial)
    (hsetup : configure initial (hooks ++ xorTransformers codec) = .ok p)
    (hroutes : p.RoutesKeepMessage)
    (hverdict : ∀ policy ∈ p.policies.policies, policy.VerdictIgnoresAttr)
    (env : Env W G) (world : W) (parser : G) (actions : List Action) :
    let r := runActions env (Machine.start p world parser) actions
    OnlyFuel r ∧
    ∀ t ∈ (finalMachine r).log, t.calls.map Prod.fst = t.expected p ∧
      ∀ d, t.delivery = some d → d.ThroughMask codec t.slot ∧
        (codec.FinalizesMavlink2 → d.transformEnabled → d.parsed.status.OutMavlink2 →
          (t.slot.val = SourceType.vmc.id → ∀ sent : Message, sent.status.OutMavlink2 →
            PlainEnd sent.msg → SameFrame (xorEncode codec sent).msg d.parsed.msg →
            ∀ c ∈ d.calls, SameReading sent.msg c.2.msg) ∧
          (t.slot.val ≠ SourceType.vmc.id → PlainEnd d.parsed.msg → ∀ c ∈ d.calls,
            ∀ received : Message, SameFrame c.2.msg received.msg →
            received.status.OutMavlink2 →
            SameReading d.parsed.msg (xorDecode codec received).msg)) := by
  intro r
  have hplain : initial.Plain := by
    obtain ⟨policies, -, rfl⟩ := pipelineInit_eq_ok_iff.mp hinit
    exact ⟨fun _ => rfl, fun _ => rfl⟩
  have hconf := configure_configured (pipelineInit_configured hinit) hsetup
  have hmasked := configure_masked hhooks hplain hsetup
  have hfree := transformed_faultFree hconf (hmasked.opsKeepRouting hroutes) hroutes
    hmasked.transformsLast hverdict env
  have hstart : TransformedRun p (Machine.start p world parser) := by
    refine ⟨mediated_start p world parser, ?_⟩
    intro t ht
    cases ht
  have hrun := hfree.toByteInvariant.runActions (transformed_flagInvariant p) hstart actions
  refine ⟨hfree.runActions (transformed_flagInvariant p) hstart actions, ?_⟩
  intro t ht
  refine ⟨(hrun.log t ht).calls, ?_⟩
  intro d hd
  have hmask := (hrun.transformed t ht d hd).throughMask hmasked (hrun.log t ht) hd
  refine ⟨hmask, ?_⟩
  intro hcodec henabled hmode
  refine ⟨?_, ?_⟩
  · intro hslot sent hsent hend hframe c hc
    obtain ⟨hinspected, hcalls⟩ := hmask.fromVehicle hslot
    rw [(hcalls c hc).2, hinspected, if_pos henabled]
    exact sameReading_decoded hcodec hsent hend hframe hmode
  · intro hslot hend c hc received hframe hreceived
    obtain ⟨-, hencoded, -⟩ := (hmask.toVehicle hslot).2 c hc
    rw [if_pos henabled] at hencoded
    rw [hencoded] at hframe
    exact sameReading_decoded hcodec hmode hend hframe hreceived

/-- The vehicle and the legacy components each behind UDP, with the mask. -/
def xorSetup : List (LinkSetup Bool Unit) :=
  simSetup ++ [.addTransformer .source SourceType.vmc.id (xorDecode wireCodec),
    .addTransformer .sink SinkType.vmc.id (xorEncode wireCodec)]

def xorPipeline : Pipeline (Links (fun _ : Bool => SocketLink (udpKind Nat 0)) Unit) :=
  match configure (shippedPipeline wireCodec)
      (xorSetup.map (LinkSetup.op fun _ => SocketLink.ops wireCodec)) with
  | .ok p => p
  | .error _ => .zero

theorem xor_setup : configure (shippedPipeline wireCodec)
    (xorSetup.map (LinkSetup.op fun _ => SocketLink.ops wireCodec)) = .ok xorPipeline := rfl

/-- A heartbeat as the other side of the masked link sends it. -/
def maskedHeartbeat : List UInt8 := [0xFD, 1, 0, 0, 0, 1, 1, 0, 0, 0, 0x5D, 0x5A, 0x4F]

/-- The round in which the heartbeats cross. -/
def xorRound : Machine (Links (fun _ : Bool => SocketLink (udpKind Nat 0)) Unit)
    (Nat → List UInt8) :=
  finalMachine (runActions simEnv (Machine.start xorPipeline
    ⟨fun l => .start (fun _ => some fun _ => 0)
      (if l then datagramAt 0 maskedHeartbeat 7 else datagramAt 0 heartbeat 9), ()⟩ fun _ => [])
    [.setTransformEnabled true, .spin 20])

/-- What was sent to the vehicle or to the legacy components, and to whom. -/
def xorOffered (vmc : Bool) : List (Option (Nat × List UInt8)) := (xorRound.world.link vmc).offered

/-- The deliveries of the round: switched on, in MAVLink 2 mode, the vehicle's with the frame
that masks the heartbeat. -/
theorem xorRound_deliveries : ∀ t ∈ xorRound.log, ∀ d, t.delivery = some d →
    d.transformEnabled ∧ d.parsed.status.OutMavlink2 ∧ PlainEnd d.parsed.msg ∧
      (t.slot.val = SourceType.vmc.id →
        SameFrame (xorEncode wireCodec (messageOfPayload [5])).msg d.parsed.msg) := by
  have hcheck : ∀ t ∈ xorRound.log, ∀ d ∈ t.delivery,
      let masked := (xorEncode wireCodec (messageOfPayload [5])).msg
      d.transformEnabled = true ∧ d.parsed.status.flags &&& 2 = 0 ∧ d.parsed.msg.len.toNat ≤ 1 ∧
        (t.slot.val = SourceType.vmc.id →
          d.parsed.msg.msgid = masked.msgid ∧ d.parsed.msg.sysid = masked.sysid ∧
            d.parsed.msg.compid = masked.compid ∧ d.parsed.msg.len = masked.len ∧
            ∀ i < masked.len.toNat, d.parsed.msg.payloadByte i = masked.payloadByte i) := by
    decide +kernel
  intro t ht d hd
  obtain ⟨henabled, hmode, hshort, hframe⟩ := hcheck t ht d hd
  refine ⟨henabled, hmode, Or.inl hshort, ?_⟩
  intro hslot
  obtain ⟨hmsgid, hsysid, hcompid, hlen, hpayload⟩ := hframe hslot
  exact ⟨hmsgid, hsysid, hcompid, hlen, hpayload⟩

/-- A masked heartbeat arrives in the clear and reads as what the vehicle masked; a plain one
leaves masked, and unmasked reads as it came. -/
theorem masked_link_heartbeats :
    xorOffered false = [some (9, heartbeat)] ∧ xorOffered true = [some (7, maskedHeartbeat)] ∧
      ∀ t ∈ xorRound.log, ∀ d, t.delivery = some d → d.ThroughMask wireCodec t.slot ∧
        (t.slot.val = SourceType.vmc.id →
          ∀ c ∈ d.calls, SameReading (messageOfPayload [5]).msg c.2.msg) ∧
        (t.slot.val ≠ SourceType.vmc.id → ∀ c ∈ d.calls,
          SameReading d.parsed.msg
            (xorDecode wireCodec { Message.zero with msg := c.2.msg }).msg) := by
  have hroutes : xorPipeline.RoutesKeepMessage :=
    (configure_wired (pipelineInit_wired (pipelineInit_shipped wireCodec))
      xor_setup).routesKeepMessage
  have hhooks : ∀ op ∈ simSetup.map (LinkSetup.op fun _ : Bool =>
      (SocketLink.ops wireCodec : LinkOps (SocketLink (udpKind Nat 0)))), op.Plain := by
    intro op hop
    simp only [simSetup, List.map_cons, List.map_nil, List.mem_cons, List.not_mem_nil,
      or_false] at hop
    rcases hop with rfl | rfl | rfl
    · trivial
    · trivial
    · trivial
  obtain ⟨-, hturns⟩ := masked_link hhooks (pipelineInit_shipped wireCodec) xor_setup hroutes
    (shippedPolicies_verdictIgnoresAttr wireCodec) simEnv
    ⟨fun l => .start (fun _ => some fun _ => 0)
      (if l then datagramAt 0 maskedHeartbeat 7 else datagramAt 0 heartbeat 9), ()⟩
    (fun _ => []) [.setTransformEnabled true, .spin 20]
  refine ⟨by decide +kernel, by decide +kernel, ?_⟩
  intro t ht d hd
  obtain ⟨hmask, htrips⟩ := (hturns t ht).2 d hd
  obtain ⟨henabled, hmode, hend, hframe⟩ := xorRound_deliveries t ht d hd
  obtain ⟨hfrom, hto⟩ := htrips wireCodec_finalizesMavlink2 henabled hmode
  refine ⟨hmask, ?_, ?_⟩
  · intro hslot
    exact hfrom hslot (messageOfPayload [5]) rfl (Or.inl (by decide)) (hframe hslot)
  · intro hslot c hc
    have hfresh : Message.zero.status.OutMavlink2 := rfl
    exact hto hslot hend c hc { Message.zero with msg := c.2.msg } (SameFrame.refl _) hfresh

end SecureGateway
