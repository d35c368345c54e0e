import SecureGateway.NonInterference

/-!
# Isolation of the components

The legacy components and the enclave reach the vehicle and the vehicle reaches
them, but neither of them reaches the other: not by a route call, and not by what
its bytes leave behind in the gateway either. All that either of them is handed is
a function of the bytes of the vehicle.

## Implementation notes

The route table says which sinks a source may reach. A sink that one source alone
may reach is handed what the turns of that source call for, and these are the turns
of its replay.
-/

namespace SecureGateway

open Library

variable {W G V : Type}

/-- The route calls made on one sink, in order, each with the record handed over. -/
def callsOn (k : Fin maxSinks) (log : List Turn) : List (Fin maxSinks × Message) :=
  (log.flatMap Turn.calls).filter fun c => c.1 = k

theorem callsOn_cons (k : Fin maxSinks) (t : Turn) (log : List Turn) :
    callsOn k (t :: log) = t.calls.filter (fun c => c.1 = k) ++ callsOn k log := by
  simp [callsOn]

/-- The sinks the rows of the route table hold. -/
theorem defaultRouteTable_has (i : Fin maxSources) (k : Fin maxSinks) :
    (defaultRouteTable.table i).has k.val ↔
      (i.val = SourceType.vmc.id ∧
        (k.val = SinkType.legacy.id ∨ k.val = SinkType.enclave.id)) ∨
      ((i.val = SourceType.legacy.id ∨ i.val = SourceType.enclave.id) ∧
        k.val = SinkType.vmc.id) := by
  revert i k
  decide

/-- A mediated byte is handed to sinks of its source's row only. -/
theorem Turn.Mediated.call_has {start : Pipeline W} {t : Turn} (ht : t.Mediated start)
    {c : Fin maxSinks × Message} (hc : c ∈ t.calls) :
    (defaultRouteTable.table t.slot).has c.1.val := by
  have hmem : c.1 ∈ t.expected start := by
    rw [← ht.calls]
    exact List.mem_map_of_mem hc
  unfold Turn.expected at hmem
  cases hd : t.delivery with
  | none =>
      rw [hd] at hmem
      cases hmem
  | some d =>
      simp only [hd, expectedSinks] at hmem
      split at hmem
      · exact (Bool.and_eq_true_iff.mp (List.mem_filter.mp hmem).2).1
      · cases hmem

/-- A sink that only one source may reach is handed what the turns of that source
call for. -/
theorem callsOn_eq_turnsOf {start : Pipeline W} {k : Fin maxSinks} {s : Fin maxSources}
    (honly : ∀ i, (defaultRouteTable.table i).has k.val → i = s) {log : List Turn}
    (hlog : ∀ t ∈ log, t.Mediated start) : callsOn k log = callsOn k (turnsOf s log) := by
  induction log with
  | nil => rfl
  | cons t log ih =>
      have hrest := ih fun u hu => hlog u (List.mem_cons_of_mem t hu)
      by_cases hslot : t.slot = s
      · rw [turnsOf, List.filter_cons_of_pos (by simpa using hslot), callsOn_cons, callsOn_cons,
          hrest, turnsOf]
      · have hnone : t.calls.filter (fun c => c.1 = k) = [] := by
          rw [List.filter_eq_nil_iff]
          intro c hc hk
          have hhas := (hlog t List.mem_cons_self).call_has hc
          rw [of_decide_eq_true hk] at hhas
          exact hslot (honly t.slot hhas)
        rw [turnsOf, List.filter_cons_of_neg (by simpa using hslot), callsOn_cons, hnone,
          List.nil_append, hrest, turnsOf]

/-- Two runs that read the same bytes from a source did the same with them. -/
theorem Replayed.turnsOf_eq {env : Env W G} {view : Nat → G → V} {s : Fin maxSources}
    {start m m' : Machine W G} (h : Replayed env view s start m)
    (h' : Replayed env view s start m') (hbytes : bytesOf s m.log = bytesOf s m'.log) :
    turnsOf s m.log = turnsOf s m'.log := by
  obtain ⟨n, hn, hagrees⟩ := h.replay
  obtain ⟨n', hn', hagrees'⟩ := h'.replay
  rw [hbytes, hn'] at hn
  cases hn
  exact hagrees.turns.trans hagrees'.turns.symm

/-- In every run, whatever the flags, the legacy components and the enclave are
handed messages of the vehicle only, and the vehicle is handed none of its own. In
two runs with the flags left alone that read the same bytes from the vehicle, the
legacy components and the enclave are handed the same messages in the same order,
whatever else was delivered and whenever. -/
theorem isolation
    {securityPolicyInit : SecurityPolicyMgmt → Except Fault SecurityPolicyMgmt}
    {prior initial p : Pipeline W} {setup : List (SetupOp W)}
    (hinit : pipelineInit securityPolicyInit prior = .ok initial)
    (hsetup : configure initial setup = .ok p) (hops : p.OpsKeepRouting)
    (hroutes : p.RoutesKeepMessage)
    (hverdict : ∀ policy ∈ p.policies.policies, policy.VerdictIgnoresAttr)
    {env : Env W G} {view : Nat → G → V} (hparser : env.parser.PerChannel view) (parser : G)
    (vmc : Fin maxSources) (hvmc : vmc.val = SourceType.vmc.id) (k : Fin maxSinks)
    (hk : k.val = SinkType.legacy.id ∨ k.val = SinkType.enclave.id) :
    (∀ world actions,
      let log := (finalMachine (runActions env (Machine.start p world parser) actions)).log
      ∀ t ∈ log, ∀ c ∈ t.calls,
        (c.1 = k → t.slot = vmc) ∧
        (c.1.val = SinkType.vmc.id → t.slot ≠ vmc)) ∧
    ∀ world₁ world₂ fuels₁ fuels₂,
      let log₁ := (finalMachine (runActions env (Machine.start p world₁ parser)
        (spins fuels₁))).log
      let log₂ := (finalMachine (runActions env (Machine.start p world₂ parser)
        (spins fuels₂))).log
      bytesOf vmc log₁ = bytesOf vmc log₂ → callsOn k log₁ = callsOn k log₂ := by
  have hconf := configure_configured (pipelineInit_configured hinit) hsetup
  have hfree := mediated_faultFree hconf hops hverdict env
  have honly (i : Fin maxSources) (hi : (defaultRouteTable.table i).has k.val) : i = vmc := by
    rcases (defaultRouteTable_has i k).mp hi with ⟨hi, -⟩ | ⟨-, hself⟩
    · exact Fin.ext (hi.trans hvmc.symm)
    · rcases hk with hk | hk <;> simp [hk, SinkType.id] at hself
  have hmediated (world : W) (actions : List Action) :
      ∀ t ∈ (finalMachine (runActions env (Machine.start p world parser) actions)).log,
        t.Mediated p :=
    (hfree.toByteInvariant.runActions (mediated_flagInvariant p) (mediated_start p world parser)
      actions).log
  constructor
  · intro world actions log t ht c hc
    have hhas := (hmediated world actions t ht).call_has hc
    refine ⟨?_, ?_⟩
    · rintro rfl
      exact honly t.slot hhas
    · rintro hcall rfl
      rcases (defaultRouteTable_has t.slot c.1).mp hhas with ⟨-, hother⟩ | ⟨hother, -⟩
      · rcases hother with hother | hother <;> simp [hcall, SinkType.id] at hother
      · rcases hother with hother | hother <;> simp [hvmc, SourceType.id] at hother
  · intro world₁ world₂ fuels₁ fuels₂ log₁ log₂ hbytes
    have hinv := replayed_byteInvariant hparser vmc (Machine.start p world₁ parser)
    have hstart (world : W) : Replayed env view vmc (Machine.start p world₁ parser)
        (Machine.start p world parser) :=
      ⟨hroutes, Machine.start p world₁ parser, rfl, ⟨rfl, rfl, rfl, rfl⟩⟩
    have hturns : turnsOf vmc log₁ = turnsOf vmc log₂ :=
      (hinv.spins (hstart world₁) fuels₁).turnsOf_eq (hinv.spins (hstart world₂) fuels₂) hbytes
    calc
      callsOn k log₁ = callsOn k (turnsOf vmc log₁) :=
        callsOn_eq_turnsOf honly (hmediated world₁ (spins fuels₁))
      _ = callsOn k (turnsOf vmc log₂) := by rw [hturns]
      _ = callsOn k log₂ := (callsOn_eq_turnsOf honly (hmediated world₂ (spins fuels₂))).symm

/-- The registrations of a link to each of the three components. -/
def triangleSetup : List (SetupOp (Nat → List UInt8)) :=
  [.hook SourceType.vmc.id SinkType.vmc.id (linkOps SourceType.vmc.id),
    .hook SourceType.legacy.id SinkType.legacy.id (linkOps SourceType.legacy.id),
    .hook SourceType.enclave.id SinkType.enclave.id (linkOps SourceType.enclave.id)]

def triangle : Pipeline (Nat → List UInt8) :=
  match configure (shippedPipeline wireCodec) triangleSetup with
  | .ok p => p
  | .error _ => .zero

theorem triangle_setup :
    configure (shippedPipeline wireCodec) triangleSetup = .ok triangle := rfl

theorem triangle_routesKeepMessage : triangle.RoutesKeepMessage := by
  intro k route hroute msg world
  match k with
  | ⟨0, _⟩ => cases hroute
  | ⟨1, _⟩ => rw [← Option.some.inj hroute]; rfl
  | ⟨2, _⟩ => rw [← Option.some.inj hroute]; rfl
  | ⟨3, _⟩ => rw [← Option.some.inj hroute]; rfl

theorem triangle_opsKeepRouting : triangle.OpsKeepRouting := by
  have hsource : ∀ i, (triangle.sources i).transform.isSome = false := by decide
  have hsink : ∀ k, (triangle.sinks k).transform.isSome = false := by decide
  apply triangle_routesKeepMessage.opsKeepRouting
  · intro i f hf
    simpa [hf] using hsource i
  · intro k f hf
    simpa [hf] using hsink k

/-- A world in which the vehicle delivers a heartbeat and the enclave the given bytes. -/
def heartbeatOfVehicle (enclave : List UInt8) (slot : Nat) : List UInt8 :=
  if slot = SourceType.vmc.id then heartbeat
  else if slot = SourceType.enclave.id then enclave
  else []

/-- The legacy components are handed the heartbeat of the vehicle and nothing else,
whether the enclave sends a heartbeat or stray bytes. -/
theorem isolation_heartbeat :
    let log₁ := (finalMachine (runActions relayEnv
      (Machine.start triangle (heartbeatOfVehicle heartbeat) fun _ => []) (spins [20]))).log
    let log₂ := (finalMachine (runActions relayEnv
      (Machine.start triangle (heartbeatOfVehicle [0xFD, 7]) fun _ => []) (spins [20, 1]))).log
    (callsOn ⟨SinkType.legacy.id, by decide⟩ log₁).length = 1 ∧
      callsOn ⟨SinkType.legacy.id, by decide⟩ log₁ =
        callsOn ⟨SinkType.legacy.id, by decide⟩ log₂ := by
  have hverdict : ∀ policy ∈ triangle.policies.policies, policy.VerdictIgnoresAttr :=
    shippedPolicies_verdictIgnoresAttr wireCodec
  have hboth := isolation (pipelineInit_shipped wireCodec) triangle_setup
    triangle_opsKeepRouting triangle_routesKeepMessage hverdict
    (show relayEnv.parser.PerChannel _ from wireParser_perChannel) (fun _ => [])
    ⟨SourceType.vmc.id, by decide⟩ rfl ⟨SinkType.legacy.id, by decide⟩ (Or.inl rfl)
  exact ⟨by decide +kernel, hboth.2 (heartbeatOfVehicle heartbeat)
    (heartbeatOfVehicle [0xFD, 7]) [20] [20, 1] (by decide +kernel)⟩

end SecureGateway
