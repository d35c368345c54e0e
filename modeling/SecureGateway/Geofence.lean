import SecureGateway.Mediation
import SecureGateway.Xor

/-!
# Disabling the geofence

A vehicle takes the command that disables its fence from `COMMAND_LONG` and from
`COMMAND_INT`. The shipped policies look at the first carrier only.
-/

namespace SecureGateway

variable {W : Type}

/-- A message that makes the vehicle disable its fence, in either carrier of the command. -/
def DisablesFence (codec : MavlinkCodec) (commandIntDecode : MavlinkMessage → CommandInt)
    (msg : MavlinkMessage) : Prop :=
  (msg.msgid = msgIdCommandLong ∧
    (codec.commandLongDecode msg).command = mavCmdDoFenceEnable ∧
    floatIsZero (codec.commandLongDecode msg).param1) ∨
  (msg.msgid = msgIdCommandInt ∧
    (commandIntDecode msg).command = mavCmdDoFenceEnable ∧
    floatIsZero (commandIntDecode msg).param1)

/-- No shipped policy rejects a `COMMAND_INT`, whatever it carries. -/
theorem shippedPolicies_accept_commandInt (codec : MavlinkCodec) {msg : Message}
    (h : msg.msg.msgid = msgIdCommandInt) :
    (shippedPolicies codec).any (fun policy => policy.rejects msg) = false := by
  have hlong : msgIdCommandInt ≠ msgIdCommandLong := by decide
  have hparam : msgIdCommandInt ≠ msgIdParamSet := by decide
  have hmeminfo : msgIdCommandInt ≠ msgIdMeminfo := by decide
  simp [shippedPolicies, SecurityPolicy.rejects, policyAcceptVmc, policyRejectDisableGeofence,
    policyRejectMeminfo, securityPolicyCheckAccept,
    securityPolicyRejectMavlinkCmdDisableGeofence, securityPolicyRejectMavlinkCmdMeminfo, h,
    hlong, hparam, hmeminfo]

/-- The shipped policies reject a message that disables the fence exactly when its
carrier is `COMMAND_LONG`. -/
theorem shippedPolicies_rejects_iff {codec : MavlinkCodec}
    {commandIntDecode : MavlinkMessage → CommandInt} {msg : Message}
    (hsource : msg.source = SourceType.legacy.id ∨ msg.source = SourceType.enclave.id)
    (h : DisablesFence codec commandIntDecode msg.msg) :
    (shippedPolicies codec).any (fun policy => policy.rejects msg) = true ↔
      msg.msg.msgid = msgIdCommandLong := by
  rcases h with ⟨hid, hcmd, hzero⟩ | ⟨hid, -, -⟩
  · have hblocks : ShippedBlocks codec msg.msg := Or.inr (Or.inl ⟨hid, hcmd, hzero⟩)
    simp [shippedPolicies_any_rejects codec hsource hblocks, hid]
  · have hne : msgIdCommandInt ≠ msgIdCommandLong := by decide
    simp [shippedPolicies_accept_commandInt codec hid, hid, hne]

/-- From the untrusted sources the default row has the vehicle's sink only. -/
theorem routeOf_untrusted_has {source : Nat}
    (h : source = SourceType.legacy.id ∨ source = SourceType.enclave.id) (k : Fin maxSinks) :
    (routeOf defaultRouteTable source).has k.val = decide (k.val = SinkType.vmc.id) := by
  revert k
  rcases h with rfl | rfl
  · decide
  · decide

section Untrusted

variable {p : Pipeline W} {msg : Message} (htable : p.routeTable = defaultRouteTable)
  (hsource : msg.source = SourceType.legacy.id ∨ msg.source = SourceType.enclave.id)

include htable hsource

theorem presented_untrusted_has (k : Fin maxSinks) :
    (presented p msg).sinks.has k.val = decide (k.val = SinkType.vmc.id) := by
  rw [presented, htable]
  exact routeOf_untrusted_has hsource k

/-- A message of an untrusted source has no sink to go to exactly when the vehicle has
no route operation. -/
theorem handsTo_untrusted_none_iff :
    (∀ k, handsTo p (presented p msg) k = false) ↔
      (p.sinks ⟨SinkType.vmc.id, by decide⟩).route = none := by
  constructor
  · intro hnone
    have hvmc := hnone ⟨SinkType.vmc.id, by decide⟩
    rw [handsTo, presented_untrusted_has htable hsource] at hvmc
    simpa using hvmc
  · intro hnone k
    rw [handsTo, presented_untrusted_has htable hsource]
    by_cases hk : k.val = SinkType.vmc.id
    · have hvmc : k = ⟨SinkType.vmc.id, by decide⟩ := Fin.ext hk
      simp [hvmc, hnone]
    · simp [hk]

/-- The shipped policies mark a message of an untrusted source for discard exactly when
one of them rejects it. -/
theorem pipelineInspect_untrusted_has_discard {codec : MavlinkCodec}
    (henabled : p.policyEnabled = true)
    (hpolicies : p.policies.policies = shippedPolicies codec) :
    (pipelineInspect p (presented p msg)).sinks.has SinkType.discard.id =
      (shippedPolicies codec).any fun policy => policy.rejects (presented p msg) := by
  have hrow : (presented p msg).sinks.has SinkType.discard.id = false :=
    presented_untrusted_has htable hsource ⟨SinkType.discard.id, by decide⟩
  calc
    (pipelineInspect p (presented p msg)).sinks.has SinkType.discard.id
        = !(judge (shippedPolicies codec) (presented p msg)).1 := by
      rw [pipelineInspect_has_discard, hrow, henabled, hpolicies, Bool.false_or, Bool.true_and]
    _ = (shippedPolicies codec).any fun policy => policy.rejects (presented p msg) := by
      rw [judge_fst _ _ (shippedPolicies_verdictIgnoresAttr codec), Bool.not_not]

end Untrusted

/-- With the shipped policies on, a message that disables the fence is kept from
every sink exactly when it is a `COMMAND_LONG` or the vehicle has no route operation. -/
theorem fence_disable_withheld_iff {codec : MavlinkCodec}
    {commandIntDecode : MavlinkMessage → CommandInt} (debug : Bool) {p : Pipeline W}
    (perf : Perf) {msg : Message} (world : W) (henabled : p.policyEnabled = true)
    (hpolicies : p.policies.policies = shippedPolicies codec)
    (htable : p.routeTable = defaultRouteTable)
    (hsource : msg.source = SourceType.legacy.id ∨ msg.source = SourceType.enclave.id)
    (hcarries : DisablesFence codec commandIntDecode msg.msg) :
    ∃ r, pipelinePush debug p perf msg world = .ok r ∧
      (r.calls = [] ↔ msg.msg.msgid = msgIdCommandLong ∨
        (p.sinks ⟨SinkType.vmc.id, by decide⟩).route = none) := by
  have hlt : msg.source < maxSources := by
    rcases hsource with h | h <;> rw [h] <;> decide
  obtain ⟨r, hpush⟩ := exists_pipelinePush debug p perf msg world hlt
  refine ⟨r, hpush, ?_⟩
  have hinspected := pipelinePush_inspected hlt hpush
  have hdiscard : r.inspected.sinks.has SinkType.discard.id = true ↔
      msg.msg.msgid = msgIdCommandLong := by
    rw [hinspected, pipelineInspect_untrusted_has_discard htable hsource henabled hpolicies]
    exact shippedPolicies_rejects_iff hsource hcarries
  rw [pipelinePush_calls_eq_nil_iff hlt hpush, hdiscard]
  by_cases hlong : msg.msg.msgid = msgIdCommandLong
  · simp [hlong]
  · -- no policy objects, so inspection leaves the row as it is
    have hclear : r.inspected.sinks.has SinkType.discard.id = false := by
      rw [← Bool.not_eq_true, hdiscard]
      exact hlong
    rw [hinspected] at hclear ⊢
    rw [handsTo_pipelineInspect hclear, handsTo_untrusted_none_iff htable hsource]

/-- `MAV_CMD_DO_FENCE_ENABLE` with all parameters zero, from the legacy components. -/
def fenceCommand (msgid : BitVec 24) : Message :=
  let msg := messageOfPayload (List.replicate 28 0 ++ [0xCF])
  { msg with
    msg := { msg.msg with msgid := msgid }
    source := SourceType.legacy.id }

theorem fence_disable_withheld_commandLong :
    ∃ r, pipelinePush false relay perfInit (fenceCommand msgIdCommandLong)
        (heartbeatBeside []) = .ok r ∧ r.calls = [] := by
  have hcarries : DisablesFence wireCodec wireCommandIntDecode
      (fenceCommand msgIdCommandLong).msg :=
    Or.inl ⟨rfl, by decide +kernel, by decide +kernel⟩
  obtain ⟨r, hpush, hiff⟩ := fence_disable_withheld_iff false perfInit
    (heartbeatBeside []) (show relay.policyEnabled = true from rfl) rfl rfl (Or.inl rfl) hcarries
  exact ⟨r, hpush, hiff.mpr (Or.inl rfl)⟩

/-- The same command in a `COMMAND_INT` is handed to the vehicle. -/
theorem fence_disable_passes_commandInt :
    relay.policyEnabled = true ∧ relay.policies.policies = shippedPolicies wireCodec ∧
    relay.routeTable = defaultRouteTable ∧
    DisablesFence wireCodec wireCommandIntDecode (fenceCommand msgIdCommandInt).msg ∧
    ∃ r, pipelinePush false relay perfInit (fenceCommand msgIdCommandInt)
        (heartbeatBeside []) = .ok r ∧ r.calls ≠ [] := by
  refine ⟨rfl, rfl, rfl, Or.inr ⟨rfl, by decide +kernel, by decide +kernel⟩, ?_⟩
  obtain ⟨r, hpush⟩ := exists_pipelinePush false relay perfInit
    (fenceCommand msgIdCommandInt) (heartbeatBeside []) (by decide)
  refine ⟨r, hpush, ?_⟩
  intro hnone
  have hcount : (pipelinePush false relay perfInit (fenceCommand msgIdCommandInt)
      (heartbeatBeside [])).toOption.map (fun r => r.calls.length) = some 1 := by
    decide +kernel
  rw [hpush] at hcount
  simp [Except.toOption, hnone] at hcount

end SecureGateway
