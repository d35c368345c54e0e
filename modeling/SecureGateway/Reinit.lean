import SecureGateway.Mediation

/-!
# Initializing a used pipeline

`pipeline_init` on a record with prior contents. Whatever is registered afterwards and
whatever comes in, two such pipelines route the same messages exactly when the one flag
the function leaves alone had the same value in both.

## Implementation notes

The log of rejected messages counts as a route call to the discard sink. A run cut short
is compared by the calls it had made.
-/

namespace SecureGateway

open Library

variable {W G : Type}

/-- The route calls a byte led to, those of the discard log included. -/
def Turn.routed (t : Turn) : List (Fin maxSinks × Message) :=
  match t.delivery with
  | some d =>
      d.calls ++ d.discardLog.toList.map fun msg => (⟨SinkType.discard.id, by decide⟩, msg)
  | none => []

/-- Every route call of the rounds that follow `pipeline_init` and the registrations. -/
def routedAfterInit (codec : MavlinkCodec) (env : Env W G) (setup : List (SetupOp W))
    (world : W) (parser : G) (rounds : List Nat) (prior : Pipeline W) :
    Except Fault (List (Fin maxSinks × Message)) := do
  let pipeline ← pipelineInit (securityPolicyInit codec) prior
  let pipeline ← configure pipeline setup
  let m := finalMachine
    (runActions env (Machine.start pipeline world parser) (rounds.map Action.spin))
  return m.log.flatMap Turn.routed

/-- No later use tells the two prior contents apart. -/
def ErasesHistory (codec : MavlinkCodec) (prior₁ prior₂ : Pipeline W) : Prop :=
  ∀ (G : Type) (env : Env W G) setup world parser rounds,
    routedAfterInit codec env setup world parser rounds prior₁ =
      routedAfterInit codec env setup world parser rounds prior₂

/-- Of the prior contents only the transform flag is left. -/
theorem pipelineInit_eq (codec : MavlinkCodec) (prior : Pipeline W) :
    pipelineInit (securityPolicyInit codec) prior =
      .ok { shippedPipeline codec with transformEnabled := prior.transformEnabled } := rfl

/-- A parser to which every byte is a message numbered zero. -/
def eagerParser : MavlinkParser Unit where
  parseChar _ _ _ status state := ⟨.ok, .zero, status, state⟩

/-- A source that always has a byte. -/
def eagerOps : HookOps W where
  hasMore world := (1, world)
  readByte world := (0, world)
  route msg world := (msg, world)

/-- A transformer after which the message is one the policies reject. -/
def toMeminfo (msg : Message) : Message :=
  { msg with msg := { msg.msg with msgid := msgIdMeminfo } }

/-- The legacy source routed to the vehicle, with a transformer of its own. -/
def hidingSetup : List (SetupOp W) :=
  [.hook SourceType.legacy.id SinkType.vmc.id eagerOps,
    .addTransformer .source SourceType.legacy.id toMeminfo]

def legacySlot : Fin maxSources := ⟨SourceType.legacy.id, by decide⟩

/-- The configured pipeline under either value of the flag. -/
def hidingPipeline (W : Type) (codec : MavlinkCodec) (transformEnabled : Bool) : Pipeline W :=
  match configure { shippedPipeline codec with transformEnabled := transformEnabled }
      hidingSetup with
  | .ok p => p
  | .error _ => .zero

section Hiding

variable (codec : MavlinkCodec) (transformEnabled : Bool)

theorem configure_hidingSetup :
    configure { shippedPipeline codec with transformEnabled := transformEnabled } hidingSetup =
      .ok (hidingPipeline W codec transformEnabled) := rfl

theorem hidingPipeline_sink :
    ((hidingPipeline W codec transformEnabled).sinks
      ⟨SinkType.vmc.id, by decide⟩).route = some eagerOps.route := rfl

/-- The record of the source as it is pushed. -/
def hiddenRecord : Message :=
  applyTransform transformEnabled (some toMeminfo)
    { Message.zero with source := SourceType.legacy.id }

theorem hiddenRecord_source : (hiddenRecord transformEnabled).source = SourceType.legacy.id := by
  cases transformEnabled <;> rfl

/-- The record as the policies are shown it. -/
def hiddenShown : Message :=
  { hiddenRecord transformEnabled with sinks := routeOf defaultRouteTable SourceType.legacy.id }

theorem presented_hidingPipeline :
    presented (hidingPipeline W codec transformEnabled) (hiddenRecord transformEnabled) =
      hiddenShown transformEnabled := by
  cases transformEnabled <;> rfl

/-- The shipped policies reject what the transformer makes of the record. -/
theorem shippedPolicies_reject_hiddenShown :
    (shippedPolicies codec).any (fun policy => policy.rejects (hiddenShown transformEnabled)) =
      transformEnabled := by
  cases transformEnabled <;> rfl

theorem hiddenShown_discarded :
    (pipelineInspect (hidingPipeline W codec transformEnabled)
      (hiddenShown transformEnabled)).sinks.has SinkType.discard.id = transformEnabled := by
  have hpolicies : (hidingPipeline W codec transformEnabled).policies.policies =
      shippedPolicies codec := rfl
  have henabled : (hidingPipeline W codec transformEnabled).policyEnabled = true := rfl
  have hrow : (routeOf defaultRouteTable SourceType.legacy.id).has SinkType.discard.id = false := by
    decide
  have hsinks : (hiddenShown transformEnabled).sinks =
      routeOf defaultRouteTable SourceType.legacy.id := rfl
  rw [pipelineInspect_has_discard, hpolicies, henabled,
    judge_fst _ _ (shippedPolicies_verdictIgnoresAttr codec),
    shippedPolicies_reject_hiddenShown, hsinks, hrow]
  simp

/-- The vehicle's sink is handed the record unless it is discarded. -/
theorem handsTo_hiddenShown (h : transformEnabled = false) :
    handsTo (hidingPipeline W codec transformEnabled)
      (pipelineInspect (hidingPipeline W codec transformEnabled) (hiddenShown transformEnabled))
      ⟨SinkType.vmc.id, by decide⟩ = true := by
  have hkept := hiddenShown_discarded (W := W) codec transformEnabled
  rw [h] at hkept ⊢
  have hrow : (routeOf defaultRouteTable SourceType.legacy.id).has SinkType.vmc.id = true := by
    decide
  rw [handsTo_pipelineInspect hkept, handsTo, hidingPipeline_sink, Bool.and_eq_true]
  exact ⟨hrow, rfl⟩

/-- The push of the record makes no call exactly when the transformer was on. -/
theorem exists_push_hiddenRecord (perf : Perf) (world : W) :
    ∃ r, pipelinePush false (hidingPipeline W codec transformEnabled) perf
        (hiddenRecord transformEnabled) world = .ok r ∧
      r.discardLog = none ∧ (r.calls = [] ↔ transformEnabled = true) := by
  have hsource : (hiddenRecord transformEnabled).source < maxSources := by
    rw [hiddenRecord_source]
    decide
  have hshown := presented_hidingPipeline (W := W) codec transformEnabled
  obtain ⟨r, hpush⟩ := exists_pipelinePush false (hidingPipeline W codec transformEnabled) perf
    (hiddenRecord transformEnabled) world hsource
  have hinspected := pipelinePush_inspected hsource hpush
  have hiff := pipelinePush_calls_eq_nil_iff hsource hpush
  rw [hinspected, hshown, hiddenShown_discarded] at hiff
  refine ⟨r, hpush, pipelinePush_release_discardLog hsource hpush, ?_⟩
  rw [hiff]
  constructor
  · rintro (hon | hnone)
    · exact hon
    · by_contra hoff
      rw [Bool.not_eq_true] at hoff
      have hhanded := handsTo_hiddenShown (W := W) codec transformEnabled hoff
      rw [hnone] at hhanded
      cases hhanded
  · exact Or.inl

/-- A release build with a parser to which every byte is a message. -/
def eagerEnv : Env W Unit where
  debug := false
  parser := eagerParser
  timeUs world := (0, world)

/-- Fuel for one byte only cuts the loop after it. -/
theorem drain_cut {env : Env W G} {i : Fin maxSources} {hasMore readByte : W → Int × W}
    {m m' : Machine W G} (hmore : (hasMore m.world).1 ≠ 0)
    (hbyte : spinByte env i (byteOfInt (readByte (hasMore m.world).2).1)
      { m with world := (readByte (hasMore m.world).2).2 } = .ok m') :
    drain env i hasMore readByte 1 m = .error ⟨.outOfFuel, m'⟩ := by
  simp only [drain, if_neg hmore, hbyte]

/-- The delivery of the record under the pipeline's flags. -/
def hiddenDelivery (r : PushResult W) : Delivery where
  parsed := .zero
  policyEnabled := true
  transformEnabled := transformEnabled
  inspected := r.inspected
  calls := r.calls
  discardLog := r.discardLog

theorem deliver_hiddenRecord {world : W} {perf : Perf} {r : PushResult W}
    (hperf : perfPortUnitUpdate perfInit .source SourceType.legacy.id
      { Message.zero with source := SourceType.legacy.id } = .ok perf)
    (hpush : pipelinePush false (hidingPipeline W codec transformEnabled) perf
      (hiddenRecord transformEnabled) world = .ok r) :
    deliver false (hidingPipeline W codec transformEnabled) legacySlot perfInit .zero world =
      .ok (hiddenDelivery transformEnabled r, r) := by
  rw [deliver_eq_ok_iff]
  exact ⟨perf, hperf, hpush, rfl⟩

/-- The gateway about to run on the pipeline. -/
def hidingStart (world : W) : Machine W Unit :=
  Machine.start (hidingPipeline W codec transformEnabled) world ()

/-- With fuel for one byte the source is cut short after it. -/
theorem spinSource_hidingStart {world : W} {r : PushResult W}
    (hdeliver : deliver false (hidingPipeline W codec transformEnabled) legacySlot perfInit .zero
      world = .ok (hiddenDelivery transformEnabled r, r)) :
    ∃ halt, spinSource eagerEnv 1 (hidingStart codec transformEnabled world) legacySlot =
        .error halt ∧
      halt.machine.log = [⟨legacySlot, 0, some (hiddenDelivery transformEnabled r)⟩] := by
  have hbyte : spinByte eagerEnv legacySlot 0 (hidingStart codec transformEnabled world) = .ok _ :=
    spinByte_completed rfl hdeliver
  have hdrain : spinSource eagerEnv 1 (hidingStart codec transformEnabled world) legacySlot =
      drain eagerEnv legacySlot eagerOps.hasMore eagerOps.readByte 1
        (hidingStart codec transformEnabled world) := rfl
  have hcut : drain eagerEnv legacySlot eagerOps.hasMore eagerOps.readByte 1
      (hidingStart codec transformEnabled world) = .error ⟨.outOfFuel, _⟩ :=
    drain_cut (show (1 : Int) ≠ 0 by decide) hbyte
  rw [hdrain, hcut]
  exact ⟨_, rfl, rfl⟩

/-- The slots before the legacy source are not connected. -/
theorem pipelineSpin_hidingStart {world : W} {halt : Halt W Unit}
    (hsource : spinSource eagerEnv 1 (hidingStart codec transformEnabled world) legacySlot =
      .error halt) :
    pipelineSpin eagerEnv 1 (hidingStart codec transformEnabled world) = .error halt := by
  have hslots : List.finRange maxSources =
      [⟨0, by decide⟩, ⟨1, by decide⟩, legacySlot, ⟨3, by decide⟩] := rfl
  have hfirst : spinSource eagerEnv 1 (hidingStart codec transformEnabled world) ⟨0, by decide⟩ =
      .ok (hidingStart codec transformEnabled world) := rfl
  have hsecond : spinSource eagerEnv 1 (hidingStart codec transformEnabled world) ⟨1, by decide⟩ =
      .ok (hidingStart codec transformEnabled world) := rfl
  have hloop : (List.finRange maxSources).foldlM (spinSource eagerEnv 1)
      (hidingStart codec transformEnabled world) = .error halt := by
    rw [hslots, List.foldlM_cons, hfirst, ok_bind, List.foldlM_cons, hsecond, ok_bind,
      List.foldlM_cons, hsource]
    rfl
  have hspin : pipelineSpin eagerEnv 1 (hidingStart codec transformEnabled world) =
      ((List.finRange maxSources).foldlM (spinSource eagerEnv 1)
        (hidingStart codec transformEnabled world) >>= fun m => _) := rfl
  rw [hspin, hloop]
  rfl

end Hiding

/-- The calls of the one round: none exactly when the transformer was on. -/
theorem routedAfterInit_hidingSetup (codec : MavlinkCodec) (world : W) (prior : Pipeline W) :
    ∃ calls, routedAfterInit codec eagerEnv hidingSetup world () [1] prior = .ok calls ∧
      (calls = [] ↔ prior.transformEnabled = true) := by
  obtain ⟨perf, hperf⟩ := exists_perfPortUnitUpdate perfInit .source
    { Message.zero with source := SourceType.legacy.id }
    (show SourceType.legacy.id < maxPerfPortUnits by decide)
  obtain ⟨r, hpush, hlog, hcalls⟩ :=
    exists_push_hiddenRecord codec prior.transformEnabled perf world
  have hdeliver := deliver_hiddenRecord codec _ hperf hpush
  obtain ⟨halt, hsource, hhalt⟩ := spinSource_hidingStart codec _ hdeliver
  have hspin := pipelineSpin_hidingStart codec _ hsource
  have hrun : runActions eagerEnv (hidingStart codec prior.transformEnabled world)
      ([1].map Action.spin) = .error halt := by
    rw [runActions, List.map_singleton, List.foldlM_cons]
    exact congrArg (· >>= _) hspin
  refine ⟨(hiddenDelivery prior.transformEnabled r).calls, ?_, hcalls⟩
  unfold routedAfterInit
  rw [pipelineInit_eq, ok_bind, configure_hidingSetup, ok_bind]
  have hfinal : finalMachine (runActions eagerEnv (Machine.start
      (hidingPipeline W codec prior.transformEnabled) world ()) ([1].map Action.spin)) =
      halt.machine := congrArg finalMachine hrun
  dsimp only
  rw [hfinal, hhalt]
  simp [Turn.routed, hiddenDelivery, hlog, pure, Except.pure]

/-- Two used pipelines cannot be told apart after `pipeline_init` exactly when the transform
flag was the same in both. -/
theorem erasesHistory_iff [Nonempty W] (codec : MavlinkCodec) (prior₁ prior₂ : Pipeline W) :
    ErasesHistory codec prior₁ prior₂ ↔ prior₁.transformEnabled = prior₂.transformEnabled := by
  constructor
  · intro herases
    obtain ⟨world⟩ := ‹Nonempty W›
    obtain ⟨calls₁, hrun₁, hcalls₁⟩ := routedAfterInit_hidingSetup codec world prior₁
    obtain ⟨calls₂, hrun₂, hcalls₂⟩ := routedAfterInit_hidingSetup codec world prior₂
    have hsame := herases Unit eagerEnv hidingSetup world () [1]
    rw [hrun₁, hrun₂, Except.ok.injEq] at hsame
    rw [Bool.eq_iff_iff, ← hcalls₁, ← hcalls₂, hsame]
  · intro hflag G env setup world parser rounds
    have hinit : pipelineInit (securityPolicyInit codec) prior₁ =
        pipelineInit (securityPolicyInit codec) prior₂ := by
      rw [pipelineInit_eq, pipelineInit_eq, hflag]
    rw [routedAfterInit, routedAfterInit, hinit]

/-- A relay that has been in use is as good as a fresh record. -/
theorem erasesHistory_relay : ErasesHistory wireCodec relay .zero :=
  (erasesHistory_iff wireCodec relay .zero).mpr rfl

/-- A transformer that shows in the message. -/
def markComponent (msg : Message) : Message := { msg with msg := { msg.msg with compid := 9 } }

/-- One heartbeat through the relay, its vehicle's sink with a transformer. -/
def markedHeartbeat (prior : Pipeline (Nat → List UInt8)) : List UInt8 :=
  match routedAfterInit wireCodec relayEnv
      (relaySetup ++ [.addTransformer .sink SinkType.vmc.id markComponent])
      (heartbeatBeside []) (fun _ => []) [20] prior with
  | .ok calls => calls.map fun call => call.2.msg.compid
  | .error _ => []

/-- Had the console switched the transformers on before, the heartbeat arrives changed. -/
theorem notErased_transformEnabled :
    markedHeartbeat .zero = [1] ∧
      markedHeartbeat { Pipeline.zero with transformEnabled := true } = [9] ∧
      ¬ ErasesHistory wireCodec (.zero : Pipeline (Nat → List UInt8))
        { Pipeline.zero with transformEnabled := true } := by
  have hoff : markedHeartbeat .zero = [1] := by decide +kernel
  have hon : markedHeartbeat { Pipeline.zero with transformEnabled := true } = [9] := by
    decide +kernel
  refine ⟨hoff, hon, ?_⟩
  intro herases
  have hsame : markedHeartbeat .zero =
      markedHeartbeat { Pipeline.zero with transformEnabled := true } := by
    unfold markedHeartbeat
    rw [herases]
  rw [hoff, hon] at hsame
  exact absurd hsame (by decide)

end SecureGateway
