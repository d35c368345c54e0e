import SecureGateway.Mediation
import SecureGateway.Xor

/-!
# What the shipped policies reject

An exact account of the messages `pipeline_inspect` marks for discard once
`security_policy_init` has run. The parameter name is compared over the twelve bytes of
`FENCE_ENABLE` only, so longer names that begin with it are rejected too.
-/

namespace SecureGateway

open Library

variable {W : Type}

/-- A string as C reads it: up to its first NUL, or to its end. -/
def cName (bytes : List UInt8) : List UInt8 := bytes.takeWhile fun b => b != 0

theorem take_cName_succ (s : List UInt8) (n : Nat) :
    (cName s).take (n + 1) =
      if s.headD 0 = 0 then [] else s.headD 0 :: (cName s.tail).take n := by
  cases s with
  | nil => rfl
  | cons b rest =>
      by_cases hb : b = 0
      · simp [cName, hb]
      · simp [cName, hb]

/-- `strncmp` finds two strings equal when they are the same up to the bound. -/
theorem strncmpEq_iff (s t : List UInt8) (n : Nat) :
    strncmpEq s t n = true ↔ (cName s).take n = (cName t).take n := by
  induction n generalizing s t with
  | zero => simp [strncmpEq]
  | succ n ih =>
      rw [take_cName_succ, take_cName_succ, strncmpEq, Bool.and_eq_true, Bool.or_eq_true,
        beq_iff_eq, beq_iff_eq, ih]
      generalize s.headD 0 = a
      generalize t.headD 0 = b
      by_cases ha : a = 0
      · by_cases hb : b = 0
        · simp [ha, hb]
        · simp [ha, hb, Ne.symm hb]
      · by_cases hb : b = 0
        · simp [ha, hb]
        · simp [ha, hb]

theorem cName_fenceEnableName : cName fenceEnableName = fenceEnableName := by decide

/-- The comparison of the geofence policy is one of prefixes. -/
theorem strncmpEq_fenceEnableName_iff (name : List UInt8) :
    strncmpEq name fenceEnableName 12 = true ↔ fenceEnableName <+: cName name := by
  have hall : fenceEnableName.take 12 = fenceEnableName := by decide
  have hlen : fenceEnableName.length = 12 := by decide
  rw [strncmpEq_iff, cName_fenceEnableName, hall, List.prefix_iff_eq_take, hlen, eq_comm]

/-- A parameter is set to zero whose name the given predicate holds of. -/
def ClearsParam (codec : MavlinkCodec) (named : List UInt8 → Prop) (msg : MavlinkMessage) :
    Prop :=
  msg.msgid = msgIdParamSet ∧ named (cName (codec.paramSetDecode msg).paramId.toList) ∧
    floatIsZero (codec.paramSetDecode msg).paramValue

/-- What the policies are there to reject: memory reports, and the two ways to disable the
fence that they know. -/
def ToReject (codec : MavlinkCodec) (msg : MavlinkMessage) : Prop :=
  msg.msgid = msgIdMeminfo ∨
  (msg.msgid = msgIdCommandLong ∧
    (codec.commandLongDecode msg).command = mavCmdDoFenceEnable ∧
    floatIsZero (codec.commandLongDecode msg).param1) ∨
  ClearsParam codec (fun name => name = fenceEnableName) msg

/-- A parameter other than `FENCE_ENABLE` whose name begins with it is set to zero. -/
def ClearsLongerName (codec : MavlinkCodec) (msg : MavlinkMessage) : Prop :=
  ClearsParam codec (fun name => fenceEnableName <+: name ∧ name ≠ fenceEnableName) msg

/-- What the policies do reject is what they are to reject, and the longer names. -/
theorem shippedBlocks_iff (codec : MavlinkCodec) (msg : MavlinkMessage) :
    ShippedBlocks codec msg ↔ ToReject codec msg ∨ ClearsLongerName codec msg := by
  have hname : strncmpEq (codec.paramSetDecode msg).paramId.toList fenceEnableName 12 = true ↔
      cName (codec.paramSetDecode msg).paramId.toList = fenceEnableName ∨
        fenceEnableName <+: cName (codec.paramSetDecode msg).paramId.toList ∧
          cName (codec.paramSetDecode msg).paramId.toList ≠ fenceEnableName := by
    rw [strncmpEq_fenceEnableName_iff]
    constructor
    · intro hbegins
      by_cases heq : cName (codec.paramSetDecode msg).paramId.toList = fenceEnableName
      · exact Or.inl heq
      · exact Or.inr ⟨hbegins, heq⟩
    · rintro (heq | ⟨hbegins, -⟩)
      · exact heq.symm ▸ List.prefix_rfl
      · exact hbegins
  rw [ShippedBlocks, ToReject, ClearsLongerName, ClearsParam, ClearsParam, hname, or_and_right,
    and_or_left, ← or_assoc, ← or_assoc, ← or_assoc]

/-- A longer name is none of the messages to reject. -/
theorem not_toReject_of_clearsLongerName {codec : MavlinkCodec} {msg : MavlinkMessage}
    (h : ClearsLongerName codec msg) : ¬ ToReject codec msg := by
  obtain ⟨hid, ⟨-, hlonger⟩, -⟩ := h
  rintro (hmeminfo | ⟨hlong, -⟩ | ⟨-, hname, -⟩)
  · exact absurd (hid.symm.trans hmeminfo) (by decide)
  · exact absurd (hid.symm.trans hlong) (by decide)
  · exact hlonger hname

/-- From the legacy components and the enclave the policies reject what they block, and no
other message. -/
theorem shippedPolicies_any_rejects_iff (codec : MavlinkCodec) {msg : Message}
    (hsource : msg.source = SourceType.legacy.id ∨ msg.source = SourceType.enclave.id) :
    (shippedPolicies codec).any (fun policy => policy.rejects msg) = true ↔
      ShippedBlocks codec msg.msg := by
  refine ⟨?_, shippedPolicies_any_rejects codec hsource⟩
  rw [List.any_eq_true]
  rintro ⟨policy, hpolicy, hrejects⟩
  simp only [shippedPolicies, List.mem_cons, List.not_mem_nil, or_false] at hpolicy
  simp only [SecurityPolicy.rejects, Bool.and_eq_true, Bool.not_eq_true'] at hrejects
  obtain ⟨-, hcheck⟩ := hrejects
  rcases hpolicy with rfl | rfl | rfl
  · cases hcheck
  · simp only [policyRejectDisableGeofence, securityPolicyRejectMavlinkCmdDisableGeofence]
      at hcheck
    split at hcheck
    · rename_i hid
      split at hcheck
      · rename_i hfence
        exact Or.inr (Or.inl ⟨hid, hfence⟩)
      · cases hcheck
    · split at hcheck
      · rename_i hid
        split at hcheck
        · rename_i hfence
          exact Or.inr (Or.inr ⟨hid, hfence⟩)
        · cases hcheck
      · cases hcheck
  · simp only [policyRejectMeminfo, securityPolicyRejectMavlinkCmdMeminfo] at hcheck
    split at hcheck
    · rename_i hid
      exact Or.inl hid
    · cases hcheck

/-- Telemetry from the vehicle is rejected by none of them. -/
theorem shippedPolicies_any_rejects_vmc (codec : MavlinkCodec) {msg : Message}
    (hsource : msg.source = SourceType.vmc.id) :
    (shippedPolicies codec).any (fun policy => policy.rejects msg) = false := by
  have hmmc : securityPolicyMatchMmc msg = false := by
    simp [securityPolicyMatchMmc, hsource, SourceType.id]
  simp [shippedPolicies, SecurityPolicy.rejects, policyAcceptVmc, securityPolicyCheckAccept,
    policyRejectDisableGeofence, policyRejectMeminfo, hmmc]

/-- Of the legacy components and the enclave exactly the messages to reject are marked for
discard, of the vehicle none. -/
structure RejectsNothingElse (codec : MavlinkCodec) (pipeline : Pipeline W) (msg : Message) :
    Prop where
  untrusted : msg.source = SourceType.legacy.id ∨ msg.source = SourceType.enclave.id →
    ((pipelineInspect pipeline msg).sinks.has SinkType.discard.id = true ↔
      ToReject codec msg.msg)
  trusted : msg.source = SourceType.vmc.id →
    (pipelineInspect pipeline msg).sinks.has SinkType.discard.id = false

theorem securityPolicyInit_empty (codec : MavlinkCodec) {policyMgmt : SecurityPolicyMgmt}
    (h : securityPolicyInit codec .empty = .ok policyMgmt) :
    policyMgmt.policies = shippedPolicies codec := by
  cases h
  rfl

/-- With the shipped policies on, a message is marked exactly when one of them rejects it. -/
theorem pipelineInspect_shipped {codec : MavlinkCodec} {p : Pipeline W} {msg : Message}
    (hpolicies : securityPolicyInit codec .empty = .ok p.policies)
    (henabled : p.policyEnabled = true)
    (hclear : msg.sinks.has SinkType.discard.id = false) :
    (pipelineInspect p msg).sinks.has SinkType.discard.id =
      (shippedPolicies codec).any fun policy => policy.rejects msg := by
  rw [pipelineInspect_has_discard, hclear, henabled, securityPolicyInit_empty codec hpolicies,
    judge_fst _ _ (shippedPolicies_verdictIgnoresAttr codec), Bool.false_or, Bool.true_and,
    Bool.not_not]

/-- The shipped policies reject nothing else of a message exactly when it does not, coming from
the legacy components or the enclave, clear a parameter with a longer name. -/
theorem rejectsNothingElse_iff {codec : MavlinkCodec} {p : Pipeline W} {msg : Message}
    (hpolicies : securityPolicyInit codec .empty = .ok p.policies)
    (henabled : p.policyEnabled = true)
    (hclear : msg.sinks.has SinkType.discard.id = false) :
    RejectsNothingElse codec p msg ↔
      ¬ ((msg.source = SourceType.legacy.id ∨ msg.source = SourceType.enclave.id) ∧
        ClearsLongerName codec msg.msg) := by
  have hmarked := pipelineInspect_shipped hpolicies henabled hclear
  constructor
  · rintro h ⟨hsource, hlonger⟩
    apply not_toReject_of_clearsLongerName hlonger
    rw [← h.untrusted hsource, hmarked, shippedPolicies_any_rejects_iff codec hsource,
      shippedBlocks_iff]
    exact Or.inr hlonger
  · intro h
    constructor
    · intro hsource
      rw [hmarked, shippedPolicies_any_rejects_iff codec hsource, shippedBlocks_iff]
      exact or_iff_left fun hlonger => h ⟨hsource, hlonger⟩
    · intro hsource
      rw [hmarked, shippedPolicies_any_rejects_vmc codec hsource]

/-- `PARAM_SET` of the named parameter to zero, from the legacy components. -/
def clearParam (name : List UInt8) : Message :=
  let msg := messageOfPayload (List.replicate 6 0 ++ name)
  { msg with
    msg := { msg.msg with msgid := msgIdParamSet }
    source := SourceType.legacy.id }

theorem rejectsNothingElse_fenceEnable :
    RejectsNothingElse wireCodec (shippedPipeline wireCodec : Pipeline Unit)
      (clearParam fenceEnableName) := by
  apply (rejectsNothingElse_iff rfl rfl (by decide)).mpr
  rintro ⟨-, -, ⟨-, hlonger⟩, -⟩
  exact hlonger (by decide +kernel)

/-- A parameter `FENCE_ENABLE2` cannot be set to zero. -/
theorem rejects_longer_name :
    (pipelineInspect (shippedPipeline wireCodec : Pipeline Unit)
        (clearParam (fenceEnableName ++ [50]))).sinks.has SinkType.discard.id = true ∧
      ¬ ∀ msg : Message, msg.sinks.has SinkType.discard.id = false →
        RejectsNothingElse wireCodec (shippedPipeline wireCodec : Pipeline Unit) msg := by
  have hmarked : (pipelineInspect (shippedPipeline wireCodec : Pipeline Unit)
      (clearParam (fenceEnableName ++ [50]))).sinks.has SinkType.discard.id = true := by
    decide +kernel
  refine ⟨hmarked, ?_⟩
  intro hall
  have hreject := ((hall (clearParam (fenceEnableName ++ [50])) (by decide)).untrusted
    (Or.inl rfl)).mp hmarked
  rcases hreject with hmeminfo | ⟨hlong, -⟩ | ⟨-, hname, -⟩
  · exact absurd hmeminfo (by decide)
  · exact absurd hlong (by decide)
  · exact absurd hname (by decide +kernel)

end SecureGateway
