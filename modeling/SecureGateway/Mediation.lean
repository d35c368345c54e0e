import SecureGateway.Spin
import SecureGateway.Wire

/-!
# Complete mediation

Over every run from `pipeline_init`, the route calls are those the routes and the
policies call for, message by message in the order the bytes were read: nothing
bypasses inspection and nothing admitted is withheld.
-/

namespace SecureGateway

open Library

variable {W G : Type}

/-- The record of a slot as the policies are shown it. -/
def shownRecord (pipeline : Pipeline W) (slot : Fin maxSources) (transformEnabled : Bool)
    (parsed : Message) : Message :=
  { applyTransform transformEnabled (pipeline.sources slot).transform
      { parsed with source := slot.val } with
    sinks := defaultRouteTable.table slot }

/-- A completed message of a slot as the policies are shown it. -/
def completedMessage (pipeline : Pipeline W) (slot : Fin maxSources) (d : Delivery) : Message :=
  shownRecord pipeline slot d.transformEnabled d.parsed

/-- The sinks a completed message is due to be handed to, in increasing order. -/
def expectedSinks (pipeline : Pipeline W) (slot : Fin maxSources) (d : Delivery) :
    List (Fin maxSinks) :=
  if admits d.policyEnabled pipeline.policies.policies (completedMessage pipeline slot d) then
    (List.finRange maxSinks).filter fun k =>
      (defaultRouteTable.table slot).has k.val && (pipeline.sinks k).route.isSome
  else []

/-- The route calls one byte is due to lead to. -/
def Turn.expected (pipeline : Pipeline W) (t : Turn) : List (Fin maxSinks) :=
  match t.delivery with
  | some d => expectedSinks pipeline t.slot d
  | none => []

/-- The commands the shipped policies block on their way to the vehicle. -/
def ShippedBlocks (codec : MavlinkCodec) (msg : MavlinkMessage) : Prop :=
  msg.msgid = msgIdMeminfo ∨
  (msg.msgid = msgIdCommandLong ∧
    (codec.commandLongDecode msg).command = mavCmdDoFenceEnable ∧
    floatIsZero (codec.commandLongDecode msg).param1) ∨
  (msg.msgid = msgIdParamSet ∧
    strncmpEq (codec.paramSetDecode msg).paramId.toList fenceEnableName 12 ∧
    floatIsZero (codec.paramSetDecode msg).paramValue)

theorem securityPolicyMatchMmc_of_source {msg : Message}
    (h : msg.source = SourceType.legacy.id ∨ msg.source = SourceType.enclave.id) :
    securityPolicyMatchMmc msg = true := by
  rcases h with h | h <;> simp [securityPolicyMatchMmc, h, SourceType.id]

/-- Each blocked command is rejected by one of the shipped policies. -/
theorem shippedPolicies_any_rejects (codec : MavlinkCodec) {msg : Message}
    (hsource : msg.source = SourceType.legacy.id ∨ msg.source = SourceType.enclave.id)
    (h : ShippedBlocks codec msg.msg) :
    (shippedPolicies codec).any (fun policy => policy.rejects msg) = true := by
  have hmatch := securityPolicyMatchMmc_of_source hsource
  rcases h with hid | ⟨hid, hcmd, hzero⟩ | ⟨hid, hname, hzero⟩
  · simp [shippedPolicies, SecurityPolicy.rejects, policyRejectMeminfo, hmatch,
      securityPolicyRejectMavlinkCmdMeminfo, hid]
  · simp [shippedPolicies, SecurityPolicy.rejects, policyRejectDisableGeofence, hmatch,
      securityPolicyRejectMavlinkCmdDisableGeofence, hid, hcmd, hzero]
  · have hne : msgIdParamSet ≠ msgIdCommandLong := by decide
    simp [shippedPolicies, SecurityPolicy.rejects, policyRejectDisableGeofence, hmatch,
      securityPolicyRejectMavlinkCmdDisableGeofence, hid, hne, hname, hzero]

/-- On a configured pipeline a connected slot's record is shown to the policies under
its own slot and row. -/
theorem presented_stamped {p : Pipeline W} (hconf : p.Configured) (hops : p.OpsKeepRouting)
    {i : Fin maxSources} (hconn : (p.sources i).isConnected) (cur : Message) :
    presented p (stamped p i cur) = shownRecord p i p.transformEnabled cur := by
  have hrow : routeOf p.routeTable (stamped p i cur).source = defaultRouteTable.table i := by
    rw [stamped_source hconf hops hconn, hconf.routeTable, routeOf, dif_pos i.isLt]
  rw [presented, hrow, stamped, (hconf.ready i hconn).sourceId]
  rfl

/-- A delivery hands its message to exactly the sinks it is due to. -/
theorem deliver_calls {debug : Bool} {start p : Pipeline W} (hsetup : start.SameSetup p)
    (hconf : start.Configured) (hops : start.OpsKeepRouting)
    (hverdict : ∀ policy ∈ start.policies.policies, policy.VerdictIgnoresAttr)
    {i : Fin maxSources} (hconn : (p.sources i).isConnected) {perf : Perf} {cur : Message}
    {world : W} {d : Delivery} {r : PushResult W}
    (h : deliver debug p i perf cur world = .ok (d, r)) :
    d.calls.map Prod.fst = expectedSinks start i d ∧
      d.inspected.msg = (completedMessage start i d).msg := by
  have hpconf := hsetup.configured hconf
  have hpops := hsetup.opsKeepRouting hops
  obtain ⟨perf', -, hpush, rfl⟩ := deliver_eq_ok_iff.mp h
  generalize hd : Delivery.mk cur p.policyEnabled p.transformEnabled r.inspected r.calls
    r.discardLog = d
  have hlt : (stamped p i cur).source < maxSources := by
    rw [stamped_source hpconf hpops hconn]
    exact i.isLt
  have hshown : presented p (stamped p i cur) = completedMessage start i d := by
    obtain ⟨old, hold⟩ := hsetup.source i
    rw [presented_stamped hpconf hpops hconn, shownRecord, hold, ← hd]
    rfl
  have hhands : handsTo p (completedMessage start i d) = fun k =>
      (defaultRouteTable.table i).has k.val && (start.sinks k).route.isSome := by
    funext k
    simp only [handsTo, hsetup.sinks, completedMessage, shownRecord]
  constructor
  · have hcalls := pipelinePush_sinks hpops (hsetup.policies ▸ hverdict) hlt hpush
    rw [hshown, hhands, hsetup.policies] at hcalls
    rw [expectedSinks, ← hd]
    rw [← hd] at hcalls
    exact hcalls
  · have hinspected : d.inspected = pipelineInspect p (completedMessage start i d) := by
      rw [← hshown, ← hd]
      exact pipelinePush_inspected hlt hpush
    rw [hinspected, pipelineInspect_msg]

/-- A byte that was mediated: its calls are those it is due to lead to, and the
message the policies saw is the one its source completed. -/
structure Turn.Mediated (start : Pipeline W) (t : Turn) : Prop where
  calls : t.calls.map Prod.fst = t.expected start
  shown : ∀ d, t.delivery = some d →
    d.inspected.msg = (completedMessage start t.slot d).msg

/-- The setup is the one the run started with and every byte so far was mediated. -/
structure Mediated (start : Pipeline W) (m : Machine W G) : Prop where
  setup : start.SameSetup m.pipeline
  log : ∀ t ∈ m.log, t.Mediated start

theorem mediated_start (p : Pipeline W) (world : W) (parser : G) :
    Mediated p (Machine.start p world parser) := by
  refine ⟨.refl p, ?_⟩
  intro t ht
  cases ht

/-- One byte of a connected source keeps the run mediated. -/
theorem Mediated.spinByte {start : Pipeline W} (hconf : start.Configured)
    (hops : start.OpsKeepRouting)
    (hverdict : ∀ policy ∈ start.policies.policies, policy.VerdictIgnoresAttr)
    {env : Env W G} {m m' : Machine W G} (hm : Mediated start m) {i : Fin maxSources}
    {byte : UInt8} (hconn : (m.pipeline.sources i).isConnected)
    (h : spinByte env i byte m = .ok m') : Mediated start m' := by
  rcases spinByte_cases h with ⟨d, r, -, hdeliver, rfl⟩ | ⟨-, rfl⟩
  · obtain ⟨hcalls, hshown⟩ := deliver_calls hm.setup hconf hops hverdict hconn hdeliver
    refine ⟨hm.setup.setCur i _, ?_⟩
    rw [List.forall_mem_append, List.forall_mem_singleton]
    refine ⟨hm.log, hcalls, ?_⟩
    intro d' hd'
    cases hd'
    exact hshown
  · refine ⟨hm.setup.setCur i _, ?_⟩
    rw [List.forall_mem_append, List.forall_mem_singleton]
    refine ⟨hm.log, rfl, ?_⟩
    intro d hd
    cases hd

/-- A configured gateway whose callbacks keep the routing data never faults. -/
theorem mediated_faultFree {start : Pipeline W} (hconf : start.Configured)
    (hops : start.OpsKeepRouting)
    (hverdict : ∀ policy ∈ start.policies.policies, policy.VerdictIgnoresAttr)
    (env : Env W G) : FaultFree env (Mediated start) where
  frame _ _ _ _ hm := ⟨hm.setup, hm.log⟩
  byte _ _ _ _ hm hconn h := hm.spinByte hconf hops hverdict hconn h
  ready _ i hm hconn := (hm.setup.configured hconf).ready i hconn
  total m i b hm hconn := by
    apply exists_spinByte
    rw [stamped_source (hm.setup.configured hconf) (hm.setup.opsKeepRouting hops) hconn]
    exact i.isLt

theorem mediated_flagInvariant (start : Pipeline W) :
    FlagInvariant (Mediated (G := G) start) := by
  intro m policyEnabled transformEnabled hm
  exact ⟨⟨hm.setup.source, hm.setup.sinks, hm.setup.routeTable, hm.setup.policies⟩, hm.log⟩

/-- A mediated command the shipped policies block is handed to no sink. -/
theorem Turn.Mediated.blocked {start : Pipeline W} {t : Turn} (ht : t.Mediated start)
    {codec : MavlinkCodec}
    (hshipped : ∀ policy ∈ shippedPolicies codec, policy ∈ start.policies.policies)
    (hslot : t.slot.val = SourceType.legacy.id ∨ t.slot.val = SourceType.enclave.id)
    (hkeep : start.OpsKeepRouting) {d : Delivery} (hd : t.delivery = some d)
    (henabled : d.policyEnabled) (hblocks : ShippedBlocks codec d.inspected.msg) :
    t.calls = [] := by
  let msg := completedMessage start t.slot d
  have hsource : msg.source = t.slot.val :=
    (applyTransform_keepsRouting d.transformEnabled (hkeep.source t.slot)
      { d.parsed with source := t.slot.val }).2.1
  have hreject : (shippedPolicies codec).any (fun policy => policy.rejects msg) = true := by
    apply shippedPolicies_any_rejects codec
    · rw [hsource]
      exact hslot
    · rw [← ht.shown d hd]
      exact hblocks
  have hany : start.policies.policies.any (fun policy => policy.rejects msg) = true := by
    obtain ⟨policy, hmem, hpolicy⟩ := List.any_eq_true.mp hreject
    exact List.any_eq_true.mpr ⟨policy, hshipped policy hmem, hpolicy⟩
  have hnone : t.expected start = [] := by
    simp only [Turn.expected, hd, expectedSinks, admits, henabled]
    rw [hany]
    simp
  simpa [hnone] using ht.calls

/-- A link in a world that holds, for each slot, the bytes yet to be delivered. -/
def linkOps (slot : Nat) : HookOps (Nat → List UInt8) where
  hasMore streams := ((streams slot).length, streams)
  readByte streams :=
    (((streams slot).headD 0).toNat, Function.update streams slot (streams slot).tail)
  route msg streams := (msg, streams)

/-- The registrations of a link to the legacy components and one to the enclave. -/
def relaySetup : List (SetupOp (Nat → List UInt8)) :=
  [.hook SourceType.legacy.id SinkType.vmc.id (linkOps SourceType.legacy.id),
    .hook SourceType.enclave.id SinkType.enclave.id (linkOps SourceType.enclave.id)]

def relay : Pipeline (Nat → List UInt8) :=
  match configure (shippedPipeline wireCodec) relaySetup with
  | .ok p => p
  | .error _ => .zero

theorem relay_setup : configure (shippedPipeline wireCodec) relaySetup = .ok relay := rfl

def relayEnv : Env (Nat → List UInt8) (Nat → List UInt8) where
  debug := false
  parser := wireParser
  timeUs streams := (0, streams)

/-- A heartbeat frame. -/
def heartbeat : List UInt8 := [0xFD, 1, 0, 0, 0, 1, 1, 0, 0, 0, 5, 109, 82]

/-- A world in which the legacy link delivers a heartbeat and the enclave the given bytes. -/
def heartbeatBeside (enclave : List UInt8) (slot : Nat) : List UInt8 :=
  if slot = SourceType.legacy.id then heartbeat
  else if slot = SourceType.enclave.id then enclave
  else []

theorem relay_route {k : Fin maxSinks} {route : Message → (Nat → List UInt8) → Message × _}
    (h : (relay.sinks k).route = some route) : ∃ slot, route = (linkOps slot).route := by
  match k with
  | ⟨0, _⟩ => cases h
  | ⟨1, _⟩ => exact ⟨SourceType.legacy.id, (Option.some.inj h).symm⟩
  | ⟨2, _⟩ => exact ⟨SourceType.enclave.id, (Option.some.inj h).symm⟩
  | ⟨3, _⟩ => cases h

theorem relay_routesKeepMessage : relay.RoutesKeepMessage := by
  intro k route hroute msg world
  obtain ⟨slot, rfl⟩ := relay_route hroute
  rfl

theorem relay_opsKeepRouting : relay.OpsKeepRouting := by
  have hsource : ∀ i, (relay.sources i).transform.isSome = false := by decide
  have hsink : ∀ k, (relay.sinks k).transform.isSome = false := by decide
  apply relay_routesKeepMessage.opsKeepRouting
  · intro i f hf
    simpa [hf] using hsource i
  · intro k f hf
    simpa [hf] using hsink k

end SecureGateway
