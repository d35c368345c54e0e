import Mathlib.Logic.Function.Basic
import SecureGateway.Bitmap
import SecureGateway.Library.Checked
import SecureGateway.Mavlink

/-!
# The pipeline record and its registration functions

The tables of sources, sinks, routes and policies, and the functions that fill
them before the gateway runs. Callbacks act on a world `W`, which stands for the
connection objects behind `opaque` and everything outside the process.

## Implementation notes

An `ASSERT` that fails is the error `assertFailed`. An access past a table that
no assertion stops is the error `outOfBounds`. The policy table is a list that
carries its bound, so `count` is its length.
-/

namespace SecureGateway

open Library

/-- The ways an execution stops short. -/
inductive Fault
  | assertFailed
  | outOfBounds
  | outOfFuel
deriving DecidableEq

/-- `enum source_type_t`. -/
inductive SourceType
  | null
  | vmc
  | legacy
  | enclave
deriving DecidableEq

def SourceType.id : SourceType → Nat
  | null => 0
  | vmc => 1
  | legacy => 2
  | enclave => 3

def maxSources : Nat := 4

/-- `enum sink_type_t`. -/
inductive SinkType
  | discard
  | vmc
  | enclave
  | legacy
deriving DecidableEq

def SinkType.id : SinkType → Nat
  | discard => 0
  | vmc => 1
  | enclave => 2
  | legacy => 3

def maxSinks : Nat := 4

/-- `enum port_type_t`. -/
inductive PortType
  | source
  | sink
deriving DecidableEq

/-- `struct message_t`: the parsed message with its routing and inspection data. -/
structure Message where
  msg : MavlinkMessage
  status : MavlinkStatus
  sinks : Bitmap
  source : Nat
  attr : BitVec 64

/-- A message record after `memset` to zero. -/
def Message.zero : Message where
  msg := .zero
  status := .zero
  sinks := bitmapClear
  source := 0
  attr := 0

/-- `struct source_t`. -/
structure Source (W : Type) where
  isConnected : Bool
  sourceId : Nat
  cur : Message
  hasMore : Option (W → Int × W)
  readByte : Option (W → Int × W)
  transform : Option (Message → Message)

/-- `struct sink_t`; a route operation may write the message it is given. -/
structure Sink (W : Type) where
  isConnected : Bool
  route : Option (Message → W → Message × W)
  transform : Option (Message → Message)

/-- `struct security_policy_t`; `check` is given the attribute word it may write and returns it. -/
structure SecurityPolicy where
  policyId : Nat
  matchFn : Message → Bool
  check : Message → BitVec 64 → Bool × BitVec 64

def maxPolicies : Nat := 16

/-- `struct security_policy_mgmt_t`. -/
structure SecurityPolicyMgmt where
  policies : List SecurityPolicy
  count_le : policies.length ≤ maxPolicies

/-- The table with `count` zero. -/
def SecurityPolicyMgmt.empty : SecurityPolicyMgmt := ⟨[], by simp⟩

/-- `struct route_table_t`. -/
structure RouteTable where
  table : Fin maxSources → Bitmap

/-- `struct pipeline_t`; its `push` and `get_sink` pointers are never changed. -/
structure Pipeline (W : Type) where
  terminated : Bool
  policyEnabled : Bool
  transformEnabled : Bool
  sources : Fin maxSources → Source W
  sinks : Fin maxSinks → Sink W
  routeTable : RouteTable
  policies : SecurityPolicyMgmt

variable {W : Type}

/-- A source slot after `memset` to zero. -/
def Source.zero : Source W where
  isConnected := false
  sourceId := 0
  cur := .zero
  hasMore := none
  readByte := none
  transform := none

/-- A sink slot after `memset` to zero. -/
def Sink.zero : Sink W where
  isConnected := false
  route := none
  transform := none

/-- A pipeline record of static storage before `pipeline_init`. -/
def Pipeline.zero : Pipeline W where
  terminated := false
  policyEnabled := false
  transformEnabled := false
  sources _ := .zero
  sinks _ := .zero
  routeTable := ⟨fun _ => bitmapClear⟩
  policies := .empty

/-- The routes a deployment starts from. -/
def defaultRouteTable : RouteTable where
  table i :=
    if i.val = SourceType.vmc.id then
      bitmapConst (bitOf SinkType.legacy.id ||| bitOf SinkType.enclave.id)
    else if i.val = SourceType.legacy.id then bitmapConst (bitOf SinkType.vmc.id)
    else if i.val = SourceType.enclave.id then bitmapConst (bitOf SinkType.vmc.id)
    else bitmapConst 0

/-- The slot of a source id, reset to a connected source without callbacks. -/
def sourceAllocate (sources : Fin maxSources → Source W) (sourceId : Nat) :
    Except Fault (Fin maxSources × (Fin maxSources → Source W)) :=
  if h : sourceId < maxSources then
    .ok (⟨sourceId, h⟩, Function.update sources ⟨sourceId, h⟩
      { sources ⟨sourceId, h⟩ with
        sourceId := sourceId
        hasMore := none
        readByte := none
        transform := none
        isConnected := true })
  else .error .assertFailed

/-- The slot of a sink type; nothing checks that the type is in range. -/
def sinkAllocate (sinks : Fin maxSinks → Sink W) (type : Nat) :
    Except Fault (Fin maxSinks × (Fin maxSinks → Sink W)) :=
  if h : type < maxSinks then
    .ok (⟨type, h⟩, Function.update sinks ⟨type, h⟩
      { route := none
        transform := none
        isConnected := true })
  else .error .outOfBounds

def sourceGet (sourceId : Nat) : Except Fault (Fin maxSources) :=
  if h : sourceId < maxSources then .ok ⟨sourceId, h⟩ else .error .assertFailed

def sinkGet (type : Nat) : Except Fault (Fin maxSinks) :=
  if h : type < maxSinks then .ok ⟨type, h⟩ else .error .assertFailed

theorem sinkGet_val (k : Fin maxSinks) : sinkGet k.val = .ok k := by
  simp [sinkGet]

def policyRegister (policyMgmt : SecurityPolicyMgmt) (policy : SecurityPolicy) :
    Except Fault SecurityPolicyMgmt :=
  if h : policyMgmt.policies.length < maxPolicies then
    .ok ⟨policyMgmt.policies ++ [policy], by simpa [Nat.add_one_le_iff] using h⟩
  else .error .assertFailed

/-- `pipeline_init` over the deployment's `security_policy_init`. The
`transform_enabled` flag keeps its prior value. -/
def pipelineInit
    (securityPolicyInit : SecurityPolicyMgmt → Except Fault SecurityPolicyMgmt)
    (pipeline : Pipeline W) : Except Fault (Pipeline W) := do
  let policies ← securityPolicyInit .empty
  return { pipeline with
    sources := fun _ => .zero
    sinks := fun _ => .zero
    terminated := false
    policyEnabled := true
    policies := policies
    routeTable := defaultRouteTable }

/-- The callbacks a hook installs on its source and on its sink. -/
structure HookOps (W : Type) where
  hasMore : W → Int × W
  readByte : W → Int × W
  route : Message → W → Message × W

/-- The registration that `hook_tcp`, `hook_udp`, `hook_tcpout` and `hook_uart`
share once the connection object is allocated. -/
def hook (pipeline : Pipeline W) (sourceId sinkType : Nat) (ops : HookOps W) :
    Except Fault (Pipeline W) := do
  let (i, sources) ← sourceAllocate pipeline.sources sourceId
  let sources := Function.update sources i
    { sources i with hasMore := some ops.hasMore, readByte := some ops.readByte }
  let (k, sinks) ← sinkAllocate pipeline.sinks sinkType
  let sinks := Function.update sinks k { sinks k with route := some ops.route }
  return { pipeline with sources := sources, sinks := sinks }

/-- `hook_stdio_sink`: only the route operation is set, the slot is not allocated. -/
def hookStdioSink (pipeline : Pipeline W) (sinkType : Nat)
    (route : Message → W → Message × W) : Except Fault (Pipeline W) := do
  let k ← sinkGet sinkType
  return { pipeline with
    sinks := Function.update pipeline.sinks k
      { pipeline.sinks k with route := some route } }

/-- The assertions admit the id just past each table; for a sink `sink_get` then
stops it, for a source nothing does. -/
def addTransformer (pipeline : Pipeline W) (type : PortType) (id : Nat)
    (transform : Message → Message) : Except Fault (Pipeline W) :=
  match type with
  | .source =>
      if id ≤ maxSources then
        if h : id < maxSources then
          .ok { pipeline with
            sources := Function.update pipeline.sources ⟨id, h⟩
              { pipeline.sources ⟨id, h⟩ with transform := some transform } }
        else .error .outOfBounds
      else .error .assertFailed
  | .sink =>
      if id ≤ maxSinks then do
        let k ← sinkGet id
        return { pipeline with
          sinks := Function.update pipeline.sinks k
            { pipeline.sinks k with transform := some transform } }
      else .error .assertFailed

/-- A registration made between `pipeline_init` and the first round. -/
inductive SetupOp (W : Type)
  | hook (sourceId sinkType : Nat) (ops : HookOps W)
  | hookStdioSink (sinkType : Nat) (route : Message → W → Message × W)
  | addTransformer (type : PortType) (id : Nat) (transform : Message → Message)
  | policyRegister (policy : SecurityPolicy)

def SetupOp.apply (pipeline : Pipeline W) : SetupOp W → Except Fault (Pipeline W)
  | hook sourceId sinkType ops => SecureGateway.hook pipeline sourceId sinkType ops
  | hookStdioSink sinkType route => SecureGateway.hookStdioSink pipeline sinkType route
  | addTransformer type id transform =>
      SecureGateway.addTransformer pipeline type id transform
  | policyRegister policy => do
      let policies ← SecureGateway.policyRegister pipeline.policies policy
      return { pipeline with policies := policies }

/-- Every registration of a deployment, in order. -/
def configure (pipeline : Pipeline W) (setup : List (SetupOp W)) :
    Except Fault (Pipeline W) :=
  setup.foldlM SetupOp.apply pipeline

/-- A slot the rounds can poll: it knows its own id and has both callbacks. -/
structure Source.Ready (src : Source W) (i : Fin maxSources) : Prop where
  sourceId : src.sourceId = i.val
  hasMore : src.hasMore.isSome
  readByte : src.readByte.isSome

/-- What the registrations establish for the rounds: the routes are the default
ones and every connected slot is ready. -/
structure Pipeline.Configured (pipeline : Pipeline W) : Prop where
  routeTable : pipeline.routeTable = defaultRouteTable
  ready : ∀ i, (pipeline.sources i).isConnected → (pipeline.sources i).Ready i

theorem pipelineInit_eq_ok_iff
    {securityPolicyInit : SecurityPolicyMgmt → Except Fault SecurityPolicyMgmt}
    {prior p : Pipeline W} :
    pipelineInit securityPolicyInit prior = .ok p ↔
      ∃ policies, securityPolicyInit .empty = .ok policies ∧
        p = { terminated := false
              policyEnabled := true
              transformEnabled := prior.transformEnabled
              sources := fun _ => .zero
              sinks := fun _ => .zero
              routeTable := defaultRouteTable
              policies := policies } := by
  simp only [pipelineInit, bind_eq_ok_iff, pure, Except.pure, Except.ok.injEq,
    eq_comm (b := p)]

theorem pipelineInit_configured
    {securityPolicyInit : SecurityPolicyMgmt → Except Fault SecurityPolicyMgmt}
    {prior p : Pipeline W} (h : pipelineInit securityPolicyInit prior = .ok p) :
    p.Configured := by
  obtain ⟨policies, -, rfl⟩ := pipelineInit_eq_ok_iff.mp h
  constructor <;> simp [Source.zero]

theorem sourceAllocate_eq_ok_iff {sources sources' : Fin maxSources → Source W}
    {sourceId : Nat} {i : Fin maxSources} :
    sourceAllocate sources sourceId = .ok (i, sources') ↔
      i.val = sourceId ∧ sources' = Function.update sources i
        { sources i with
          sourceId := sourceId
          hasMore := none
          readByte := none
          transform := none
          isConnected := true } := by
  unfold sourceAllocate
  split
  · rename_i hlt
    simp only [Except.ok.injEq, Prod.mk.injEq, Fin.ext_iff]
    constructor
    · rintro ⟨rfl, rfl⟩
      exact ⟨rfl, rfl⟩
    · rintro ⟨rfl, rfl⟩
      exact ⟨rfl, rfl⟩
  · rename_i hge
    constructor
    · intro h
      cases h
    · rintro ⟨rfl, -⟩
      exact absurd i.isLt hge

/-- Replacing one slot keeps a pipeline configured when the new slot is ready. -/
theorem Pipeline.Configured.update {p : Pipeline W} (hp : p.Configured)
    {i : Fin maxSources} {src : Source W} (hsrc : src.isConnected → src.Ready i)
    (j : Fin maxSources) (hj : (Function.update p.sources i src j).isConnected) :
    (Function.update p.sources i src j).Ready j := by
  by_cases hji : j = i
  · subst j
    rw [Function.update_self] at hj ⊢
    exact hsrc hj
  · rw [Function.update_of_ne hji] at hj ⊢
    exact hp.ready j hj

theorem hook_configured {p q : Pipeline W} {sourceId sinkType : Nat} {ops : HookOps W}
    (hp : p.Configured) (h : hook p sourceId sinkType ops = .ok q) : q.Configured := by
  obtain ⟨⟨i, sources⟩, halloc, h⟩ := bind_eq_ok_iff.mp h
  obtain ⟨⟨k, sinks⟩, -, h⟩ := bind_eq_ok_iff.mp h
  obtain ⟨hi, rfl⟩ := sourceAllocate_eq_ok_iff.mp halloc
  cases h
  refine ⟨hp.routeTable, ?_⟩
  simp only [Function.update_idem]
  apply hp.update
  intro _
  exact ⟨by simp [hi], by simp, by simp⟩

theorem addTransformer_configured {p q : Pipeline W} {type : PortType} {id : Nat}
    {transform : Message → Message} (hp : p.Configured)
    (h : addTransformer p type id transform = .ok q) : q.Configured := by
  cases type with
  | source =>
      simp only [addTransformer] at h
      split at h
      · split at h
        · rename_i hlt
          cases h
          refine ⟨hp.routeTable, hp.update fun hconn => ?_⟩
          have hready := hp.ready ⟨id, hlt⟩ hconn
          exact ⟨hready.sourceId, hready.hasMore, hready.readByte⟩
        · cases h
      · cases h
  | sink =>
      simp only [addTransformer] at h
      split at h
      · obtain ⟨k, -, h⟩ := bind_eq_ok_iff.mp h
        cases h
        exact ⟨hp.routeTable, hp.ready⟩
      · cases h

theorem SetupOp.apply_configured {p q : Pipeline W} {op : SetupOp W}
    (hp : p.Configured) (h : op.apply p = .ok q) : q.Configured := by
  cases op with
  | hook sourceId sinkType ops => exact hook_configured hp h
  | hookStdioSink sinkType route =>
      obtain ⟨k, -, h⟩ := bind_eq_ok_iff.mp h
      cases h
      exact ⟨hp.routeTable, hp.ready⟩
  | addTransformer type id transform => exact addTransformer_configured hp h
  | policyRegister policy =>
      obtain ⟨policies, -, h⟩ := bind_eq_ok_iff.mp h
      cases h
      exact ⟨hp.routeTable, hp.ready⟩

/-- Whatever is registered, the rounds start from a configured pipeline. -/
theorem configure_configured {p q : Pipeline W} {setup : List (SetupOp W)}
    (hp : p.Configured) (h : configure p setup = .ok q) : q.Configured :=
  foldlM_invariant (fun _ _ _ _ hb hstep => SetupOp.apply_configured hb hstep) hp h

end SecureGateway
