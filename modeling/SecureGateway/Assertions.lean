import SecureGateway.Mediation
import SecureGateway.Uart

/-!
# Assertions on the message path

Of a pipeline that only hooks have filled no assertion fails, whatever its sources
deliver. The reader of a UART hands the result of `read` to `ring_buffer_copy_from`,
which asserts that it is not zero.

## Implementation notes

The pipeline and its UARTs meet only in the world of the callbacks, so the threads of a
UART are run on their own, each operation under the lock one step.
-/

namespace SecureGateway

open Library

variable {W G : Type}

/-- A registration by one of the hooks, with its source and its sink in range. -/
def SetupOp.InRange : SetupOp W → Prop
  | hook sourceId sinkType _ => sourceId < maxSources ∧ sinkType < maxSinks
  | hookStdioSink sinkType _ => sinkType < maxSinks
  | addTransformer _ _ _ => False
  | policyRegister _ => False

/-- No source has a transformer. -/
def Pipeline.Untransformed (pipeline : Pipeline W) : Prop :=
  ∀ i, (pipeline.sources i).transform = none

theorem sourceAllocate_of_lt (sources : Fin maxSources → Source W) {sourceId : Nat}
    (h : sourceId < maxSources) :
    ∃ sources', sourceAllocate sources sourceId = .ok (⟨sourceId, h⟩, sources') := by
  rw [sourceAllocate, dif_pos h]
  exact ⟨_, rfl⟩

theorem sinkAllocate_of_lt (sinks : Fin maxSinks → Sink W) {type : Nat} (h : type < maxSinks) :
    ∃ sinks', sinkAllocate sinks type = .ok (⟨type, h⟩, sinks') := by
  rw [sinkAllocate, dif_pos h]
  exact ⟨_, rfl⟩

/-- A hook in range does not fail. -/
theorem exists_setupOp_apply {op : SetupOp W} (h : op.InRange) (p : Pipeline W) :
    ∃ q, op.apply p = .ok q := by
  cases op with
  | hook sourceId sinkType ops =>
      obtain ⟨sources, hsource⟩ := sourceAllocate_of_lt p.sources h.1
      obtain ⟨sinks, hsink⟩ := sinkAllocate_of_lt p.sinks h.2
      simp only [SetupOp.apply, SecureGateway.hook, hsource, hsink, ok_bind]
      exact ⟨_, rfl⟩
  | hookStdioSink sinkType route =>
      have hget : sinkGet sinkType = .ok ⟨sinkType, h⟩ := dif_pos h
      simp only [SetupOp.apply, SecureGateway.hookStdioSink, hget, ok_bind]
      exact ⟨_, rfl⟩
  | addTransformer _ _ _ => exact h.elim
  | policyRegister _ => exact h.elim

/-- A hook installs no transformer. -/
theorem setupOp_untransformed {p q : Pipeline W} {op : SetupOp W} (hop : op.InRange)
    (hp : p.Untransformed) (h : op.apply p = .ok q) : q.Untransformed := by
  cases op with
  | hook sourceId sinkType ops =>
      obtain ⟨⟨i, sources⟩, halloc, h⟩ := bind_eq_ok_iff.mp h
      obtain ⟨⟨k, sinks⟩, -, h⟩ := bind_eq_ok_iff.mp h
      obtain ⟨-, rfl⟩ := sourceAllocate_eq_ok_iff.mp halloc
      cases h
      intro j
      by_cases hj : j = i
      · subst hj
        simp
      · simpa [Function.update_of_ne hj] using hp j
  | hookStdioSink sinkType route =>
      obtain ⟨k, -, h⟩ := bind_eq_ok_iff.mp h
      cases h
      exact hp
  | addTransformer _ _ _ => exact hop.elim
  | policyRegister _ => exact hop.elim

theorem exists_configure {setup : List (SetupOp W)} (h : ∀ op ∈ setup, op.InRange)
    (p : Pipeline W) : ∃ q, configure p setup = .ok q := by
  induction setup generalizing p with
  | nil => exact ⟨p, rfl⟩
  | cons op setup ih =>
      obtain ⟨q, hq⟩ := exists_setupOp_apply (h op List.mem_cons_self) p
      rw [configure, List.foldlM_cons, hq, ok_bind]
      exact ih (fun op hop => h op (List.mem_cons_of_mem _ hop)) q

theorem configure_untransformed {setup : List (SetupOp W)} (h : ∀ op ∈ setup, op.InRange)
    {p q : Pipeline W} (hp : p.Untransformed) (hq : configure p setup = .ok q) :
    q.Untransformed :=
  foldlM_invariant (fun _ op hop _ hb hstep => setupOp_untransformed (h op hop) hb hstep) hp hq

/-- On a configured pipeline without transformers on its sources a record is pushed under its
own slot, whatever the sinks write into it. -/
theorem faultFree_untransformed (env : Env W G) {start : Pipeline W} (hconf : start.Configured)
    (hplain : start.Untransformed) :
    FaultFree env fun m : Machine W G => start.SameSetup m.pipeline where
  frame := fun _ _ _ _ h => h
  byte := by
    intro m i b m' hm _ hbyte
    obtain ⟨cur, hcur⟩ := spinByte_pipeline hbyte
    rw [hcur]
    exact hm.setCur i cur
  ready := fun m i hm hconn => (hm.configured hconf).ready i hconn
  total := by
    intro m i b hm hconn
    apply exists_spinByte
    obtain ⟨cur, hcur⟩ := hm.source i
    have hnone : (m.pipeline.sources i).transform = none := by
      rw [hcur]
      exact hplain i
    have hid : (m.pipeline.sources i).sourceId = i.val :=
      ((hm.configured hconf).ready i hconn).sourceId
    simp only [stamped, hnone, applyTransform, hid]
    exact i.isLt

/-- A gateway that only hooks have filled stops for no other reason than its fuel. -/
theorem hooked_onlyFuel (env : Env W G) {setup : List (SetupOp W)}
    (hsetup : ∀ op ∈ setup, op.InRange) {codec : MavlinkCodec} {prior p q : Pipeline W}
    (hinit : pipelineInit (securityPolicyInit codec) prior = .ok p)
    (hconfigure : configure p setup = .ok q) (world : W) (parser : G) (actions : List Action) :
    OnlyFuel (runActions env (Machine.start q world parser) actions) := by
  have hconf : q.Configured := configure_configured (pipelineInit_configured hinit) hconfigure
  have hplain : q.Untransformed := by
    refine configure_untransformed hsetup ?_ hconfigure
    obtain ⟨policies, -, rfl⟩ := pipelineInit_eq_ok_iff.mp hinit
    exact fun i => rfl
  refine (faultFree_untransformed env hconf hplain).runActions ?_ ?_ actions
  · intro m policyEnabled transformEnabled hm
    exact ⟨hm.source, hm.sinks, hm.routeTable, hm.policies⟩
  · exact Pipeline.SameSetup.refl q

/-! ### The UART -/

/-- `ring_buffer_copy_from` as `uart_server` calls it, with the assertion on the size. -/
def uartServerCopy (uart : UartConnection) (bytesRead : Nat) : Except Fault UartConnection :=
  if bytesRead > 0 then .ok (uartServerAppend uart bytesRead) else .error .assertFailed

/-- An operation on the connection; `receive` is one iteration of `uart_server` whose `read`
did not fail. -/
def UartOp.apply (codec : MavlinkCodec) (uart : UartConnection) :
    UartOp → Except Fault UartConnection
  | receive chunk => uartServerCopy (uartServerRead uart chunk) chunk.length
  | readByte => .ok (uartReadByte uart).2
  | routeTo msg => .ok (uartRouteTo codec uart msg).1

/-- The operations on a connection that has just been initialized. -/
def uartOps (codec : MavlinkCodec) (mem : Memory UartArray) (ops : List UartOp) :
    Except Fault UartConnection :=
  ops.foldlM (UartOp.apply codec) (uartStateInit mem)

/-- The read results of an operation are not zero. -/
def UartOp.Nonempty : UartOp → Prop
  | receive chunk => chunk ≠ []
  | readByte => True
  | routeTo _ => True

theorem uartOp_apply_iff (codec : MavlinkCodec) (uart : UartConnection) (op : UartOp) :
    (∃ uart', op.apply codec uart = .ok uart') ↔ op.Nonempty := by
  cases op with
  | receive chunk =>
      by_cases h : chunk.length > 0
      · simp only [UartOp.apply, uartServerCopy, if_pos h]
        exact ⟨fun _ => List.length_pos_iff.mp h, fun _ => ⟨_, rfl⟩⟩
      · simp only [UartOp.apply, uartServerCopy, if_neg h]
        constructor
        · rintro ⟨uart', heq⟩
          cases heq
        · intro hne
          exact absurd (List.length_pos_iff.mpr hne) h
  | readByte => exact ⟨fun _ => trivial, fun _ => ⟨_, rfl⟩⟩
  | routeTo msg => exact ⟨fun _ => trivial, fun _ => ⟨_, rfl⟩⟩

theorem uartOps_iff (codec : MavlinkCodec) (mem : Memory UartArray) (ops : List UartOp) :
    (∃ uart, uartOps codec mem ops = .ok uart) ↔ ∀ op ∈ ops, op.Nonempty :=
  exists_foldlM_iff (uartOp_apply_iff codec) ops (uartStateInit mem)

/-- No assertion fails on the message path: not in the run of the gateway from the pipeline,
which stops for no other reason than its fuel, and not in the threads of a UART. -/
def NoAssertionFails (codec : MavlinkCodec) (env : Env W G) (pipeline : Pipeline W) (world : W)
    (parser : G) (actions : List Action) (mem : Memory UartArray) (ops : List UartOp) : Prop :=
  OnlyFuel (runActions env (Machine.start pipeline world parser) actions) ∧
    ∃ uart, uartOps codec mem ops = .ok uart

/-- A pipeline is initialized and filled by its hooks, and then no assertion fails exactly
when no `read` of the UART returns zero. -/
theorem noAssertionFails_iff (codec : MavlinkCodec) (prior : Pipeline W)
    {setup : List (SetupOp W)} (hsetup : ∀ op ∈ setup, op.InRange) :
    ∃ p q, pipelineInit (securityPolicyInit codec) prior = .ok p ∧ configure p setup = .ok q ∧
      ∀ (env : Env W G) world parser actions mem ops,
        NoAssertionFails codec env q world parser actions mem ops ↔
          ∀ op ∈ ops, op.Nonempty := by
  obtain ⟨p, hp⟩ : ∃ p, pipelineInit (securityPolicyInit codec) prior = .ok p := ⟨_, rfl⟩
  obtain ⟨q, hq⟩ := exists_configure hsetup p
  refine ⟨p, q, hp, hq, ?_⟩
  intro env world parser actions mem ops
  rw [NoAssertionFails, and_iff_right (hooked_onlyFuel env hsetup hp hq world parser actions)]
  exact uartOps_iff codec mem ops

/-- Two hooked links, and a UART of which one `read` returns a byte. -/
theorem noAssertionFails_relay :
    ∃ p q, pipelineInit (securityPolicyInit wireCodec) .zero = .ok p ∧
      configure p relaySetup = .ok q ∧
      NoAssertionFails wireCodec relayEnv q (heartbeatBeside []) (fun _ => []) [.spin 20]
        (fun _ _ => 0) [.receive [0], .readByte] := by
  have hrange : ∀ op ∈ relaySetup, op.InRange := by
    simp [relaySetup, SetupOp.InRange, SourceType.id, SinkType.id, maxSources, maxSinks]
  obtain ⟨p, q, hp, hq, hiff⟩ := noAssertionFails_iff wireCodec .zero hrange
  refine ⟨p, q, hp, hq, (hiff relayEnv _ _ _ _ _).mpr ?_⟩
  simp [UartOp.Nonempty]

/-- A `read` that returns zero fails the assertion on the size. -/
theorem uartServerCopy_fails :
    uartOps wireCodec (fun _ _ => 0) [.receive []] = .error .assertFailed ∧
      ¬ ∀ (world : Nat → List UInt8) parser actions mem ops,
        NoAssertionFails wireCodec relayEnv relay world parser actions mem ops := by
  have hfails : uartOps wireCodec (fun _ _ => 0) [.receive []] = .error .assertFailed := rfl
  refine ⟨hfails, ?_⟩
  intro h
  obtain ⟨-, uart, huart⟩ := h (heartbeatBeside []) (fun _ => []) [] (fun _ _ => 0) [.receive []]
  rw [hfails] at huart
  cases huart

end SecureGateway
