import SecureGateway.Gateway

/-!
# The shipped security policies

Match and check functions of `security_policies.c` and the registration
`security_policy_init` makes. Telemetry from the vehicle is accepted; commands
from the other sources are checked for geofence removal and memory reports.
-/

namespace SecureGateway

/-- `strncmp(s, t, n) == 0`; past its end a string reads as NUL. -/
def strncmpEq : List UInt8 → List UInt8 → Nat → Bool
  | _, _, 0 => true
  | s, t, n + 1 =>
      s.headD 0 == t.headD 0 && (s.headD 0 == 0 || strncmpEq s.tail t.tail n)

/-- The bytes of the name `FENCE_ENABLE`. -/
def fenceEnableName : List UInt8 :=
  ['F', 'E', 'N', 'C', 'E', '_', 'E', 'N', 'A', 'B', 'L', 'E'].map Char.toUInt8

def securityPolicyMatchVmc (msg : Message) : Bool :=
  msg.source == SourceType.vmc.id

def securityPolicyMatchMmc (msg : Message) : Bool :=
  msg.source == SourceType.legacy.id || decide (SourceType.enclave.id ≤ msg.source)

def securityPolicyCheckAccept (_ : Message) (attr : BitVec 64) : Bool × BitVec 64 :=
  (true, attr)

def securityPolicyRejectMavlinkCmdMeminfo (msg : Message) (attr : BitVec 64) :
    Bool × BitVec 64 :=
  if msg.msg.msgid = msgIdMeminfo then (false, attr) else (true, attr)

/-- Rejects `COMMAND_LONG` that disables the fence and `PARAM_SET` that clears
the parameter enabling it; every other message id passes. -/
def securityPolicyRejectMavlinkCmdDisableGeofence (codec : MavlinkCodec) (msg : Message)
    (attr : BitVec 64) : Bool × BitVec 64 :=
  if msg.msg.msgid = msgIdCommandLong then
    let cmd := codec.commandLongDecode msg.msg
    if cmd.command = mavCmdDoFenceEnable ∧ floatIsZero cmd.param1 then (false, attr)
    else (true, attr)
  else if msg.msg.msgid = msgIdParamSet then
    let param := codec.paramSetDecode msg.msg
    if strncmpEq param.paramId.toList fenceEnableName 12 ∧ floatIsZero param.paramValue then
      (false, attr)
    else (true, attr)
  else (true, attr)

/-- `enum policy_id_t`. -/
inductive PolicyId
  | acceptVmc
  | rejectNavWaypoint
  | rejectDisableGeofence
  | rejectMeminfo
deriving DecidableEq

def PolicyId.id : PolicyId → Nat
  | acceptVmc => 0
  | rejectNavWaypoint => 1
  | rejectDisableGeofence => 2
  | rejectMeminfo => 3

def policyAcceptVmc : SecurityPolicy where
  policyId := PolicyId.acceptVmc.id
  matchFn := securityPolicyMatchVmc
  check := securityPolicyCheckAccept

def policyRejectDisableGeofence (codec : MavlinkCodec) : SecurityPolicy where
  policyId := PolicyId.rejectDisableGeofence.id
  matchFn := securityPolicyMatchMmc
  check := securityPolicyRejectMavlinkCmdDisableGeofence codec

def policyRejectMeminfo : SecurityPolicy where
  policyId := PolicyId.rejectMeminfo.id
  matchFn := securityPolicyMatchMmc
  check := securityPolicyRejectMavlinkCmdMeminfo

/-- `security_policy_init`; the waypoint policy is commented out in the source. -/
def securityPolicyInit (codec : MavlinkCodec) (policyMgmt : SecurityPolicyMgmt) :
    Except Fault SecurityPolicyMgmt := do
  let policyMgmt ← policyRegister policyMgmt policyAcceptVmc
  let policyMgmt ← policyRegister policyMgmt (policyRejectDisableGeofence codec)
  policyRegister policyMgmt policyRejectMeminfo

/-- The policies a shipped gateway checks, in order. -/
def shippedPolicies (codec : MavlinkCodec) : List SecurityPolicy :=
  [policyAcceptVmc, policyRejectDisableGeofence codec, policyRejectMeminfo]

/-- The pipeline `pipeline_init` makes of a static record with the shipped policies. -/
def shippedPipeline {W : Type} (codec : MavlinkCodec) : Pipeline W where
  terminated := false
  policyEnabled := true
  transformEnabled := false
  sources _ := .zero
  sinks _ := .zero
  routeTable := defaultRouteTable
  policies := ⟨shippedPolicies codec, by simp [shippedPolicies, maxPolicies]⟩

theorem pipelineInit_shipped {W : Type} (codec : MavlinkCodec) :
    pipelineInit (securityPolicyInit codec) (.zero : Pipeline W) =
      .ok (shippedPipeline codec) := rfl

/-- A policy rejects a message when it matches and its check fails. -/
def SecurityPolicy.rejects (policy : SecurityPolicy) (msg : Message) : Bool :=
  policy.matchFn msg && !(policy.check msg msg.attr).1

/-- The verdict of a policy reads neither the attribute word of the message nor
the word it is given to write. -/
def SecurityPolicy.VerdictIgnoresAttr (policy : SecurityPolicy) : Prop :=
  ∀ msg a b, policy.matchFn { msg with attr := a } = policy.matchFn msg ∧
    (policy.check { msg with attr := a } b).1 = (policy.check msg msg.attr).1

theorem shippedPolicies_verdictIgnoresAttr (codec : MavlinkCodec) :
    ∀ policy ∈ shippedPolicies codec, policy.VerdictIgnoresAttr := by
  intro policy hmem msg a b
  simp only [shippedPolicies, List.mem_cons, List.not_mem_nil, or_false] at hmem
  rcases hmem with rfl | rfl | rfl
  · exact ⟨rfl, rfl⟩
  · refine ⟨rfl, ?_⟩
    simp only [policyRejectDisableGeofence, securityPolicyRejectMavlinkCmdDisableGeofence]
    repeat' split
    all_goals rfl
  · refine ⟨rfl, ?_⟩
    simp only [policyRejectMeminfo, securityPolicyRejectMavlinkCmdMeminfo]
    split <;> rfl

/-- The shipped checks leave the attribute word as they found it. -/
theorem shippedPolicies_keep_attr (codec : MavlinkCodec) :
    ∀ policy ∈ shippedPolicies codec, ∀ msg a, (policy.check msg a).2 = a := by
  intro policy hmem msg a
  simp only [shippedPolicies, List.mem_cons, List.not_mem_nil, or_false] at hmem
  rcases hmem with rfl | rfl | rfl
  · rfl
  · simp only [policyRejectDisableGeofence, securityPolicyRejectMavlinkCmdDisableGeofence]
    repeat' split
    all_goals rfl
  · simp only [policyRejectMeminfo, securityPolicyRejectMavlinkCmdMeminfo]
    split <;> rfl

end SecureGateway
