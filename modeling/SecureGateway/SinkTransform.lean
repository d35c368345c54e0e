import SecureGateway.Push
import SecureGateway.Xor

/-!
# Sink transformers

`pipeline_push` hands one record to the sinks of a route in turn, and each sink's
transformer writes that record. A sink is isolated from the others when it is
given its own transform of the message that passed inspection.
-/

namespace SecureGateway

open Library

variable {W : Type}

/-- The record and the world once a sink has been given its own transform of `msg`. -/
def leaveBehind (pipeline : Pipeline W) (msg : Message) (acc : Message × W)
    (k : Fin maxSinks) : Message × W :=
  if handsTo pipeline msg k then
    match (pipeline.sinks k).route with
    | some route => route (sinkTransform pipeline k msg) acc.2
    | none => acc
  else acc

/-- No sink notices the sinks before it: on the record they leave behind its bit
is what it was in `msg`, and its transformer gives what it gives on `msg`. -/
def Isolated (pipeline : Pipeline W) (msg : Message) :
    Message × W → List (Fin maxSinks) → Prop
  | _, [] => True
  | acc, k :: ks =>
      handsTo pipeline acc.1 k = handsTo pipeline msg k ∧
      (handsTo pipeline msg k = true →
        sinkTransform pipeline k acc.1 = sinkTransform pipeline k msg) ∧
      Isolated pipeline msg (leaveBehind pipeline msg acc k) ks

/-- The calls that give each sink its own transform of the message. -/
def ownCalls (pipeline : Pipeline W) (msg : Message) (ks : List (Fin maxSinks)) :
    List (Fin maxSinks × Message) :=
  (ks.filter (handsTo pipeline msg)).map fun k => (k, sinkTransform pipeline k msg)

theorem ownCalls_mem {p : Pipeline W} {msg : Message} {ks : List (Fin maxSinks)}
    {c : Fin maxSinks × Message} (h : c ∈ ownCalls p msg ks) : c.1 ∈ ks := by
  obtain ⟨k, hk, rfl⟩ := List.mem_map.mp h
  exact List.mem_of_mem_filter hk

theorem ownCalls_cons (p : Pipeline W) (msg : Message) (k : Fin maxSinks)
    (ks : List (Fin maxSinks)) :
    ownCalls p msg (k :: ks) =
      if handsTo p msg k then (k, sinkTransform p k msg) :: ownCalls p msg ks
      else ownCalls p msg ks := by
  cases hmsg : handsTo p msg k with
  | false => simp [ownCalls, hmsg]
  | true => simp [ownCalls, hmsg]

/-- Over any list of distinct sinks, the loop gives each its own transform exactly
when they are isolated. -/
theorem pushLoop_isolated_iff {p : Pipeline W} (msg : Message) {ks : List (Fin maxSinks)}
    (hnodup : ks.Nodup) {st st' : PushState W} (h : ks.foldlM (pushSink p) st = .ok st') :
    st'.calls = st.calls ++ ownCalls p msg ks ↔ Isolated p msg (st.msg, st.world) ks := by
  induction ks generalizing st with
  | nil =>
      cases h
      simp [ownCalls, Isolated]
  | cons k ks ih =>
      obtain ⟨hk, hnodup⟩ := List.nodup_cons.mp hnodup
      rw [List.foldlM_cons] at h
      rcases pushSink_cases p st k with ⟨hno, hstep⟩ | ⟨route, perf, hyes, hroute, hstep⟩
      · rw [hstep, ok_bind] at h
        cases hmsg : handsTo p msg k with
        | false =>
            rw [ownCalls_cons, if_neg (by simp [hmsg]), ih hnodup h]
            simp [Isolated, hno, hmsg, leaveBehind]
        | true =>
            -- a sink of the row was skipped, and the loop does not come back to it
            obtain ⟨more, hcalls, hmem⟩ := pushLoop_extends h
            constructor
            · intro heq
              rw [hcalls, List.append_cancel_left_eq, ownCalls_cons, if_pos hmsg] at heq
              have hin : (k, sinkTransform p k msg) ∈ more := by
                rw [heq]
                exact List.mem_cons_self
              exact absurd (hmem _ hin) hk
            · intro hisolated
              simp [Isolated, hno, hmsg] at hisolated
      · rw [hstep, ok_bind] at h
        obtain ⟨more, hcalls, hmem⟩ := pushLoop_extends h
        cases hmsg : handsTo p msg k with
        | false =>
            -- a sink outside the row was called
            constructor
            · intro heq
              rw [hcalls, List.append_assoc, List.append_cancel_left_eq, ownCalls_cons,
                if_neg (by simp [hmsg])] at heq
              have hin : (k, sinkTransform p k st.msg) ∈ ownCalls p msg ks := by
                rw [← heq]
                exact List.mem_cons_self
              exact absurd (ownCalls_mem hin) hk
            · intro hisolated
              simp [Isolated, hyes, hmsg] at hisolated
        | true =>
            rw [ownCalls_cons, if_pos hmsg]
            have hleave : leaveBehind p msg (st.msg, st.world) k =
                route (sinkTransform p k msg) st.world := by
              simp [leaveBehind, hmsg, hroute]
            by_cases hsame : sinkTransform p k st.msg = sinkTransform p k msg
            · have hrest := ih hnodup h
              simp only [hsame, List.append_assoc, List.singleton_append] at hrest
              rw [hrest]
              simp [Isolated, hyes, hmsg, hsame, hleave]
            · constructor
              · intro heq
                rw [hcalls, List.append_assoc, List.append_cancel_left_eq] at heq
                have hhead := (List.cons.inj heq).1
                exact absurd (congrArg Prod.snd hhead) hsame
              · intro hisolated
                exact absurd (hisolated.2.1 hmsg) hsame

/-! ### The condition for read-only routes -/

/-- One sink's transform of `msg` is to the next sink as good as `msg` itself. -/
def Transparent (pipeline : Pipeline W) (msg : Message) (k k' : Fin maxSinks) : Prop :=
  sinkTransform pipeline k' (sinkTransform pipeline k msg) = sinkTransform pipeline k' msg

/-- A read-only route leaves the record as the sink's transformer wrote it. -/
theorem leaveBehind_of_handsTo {p : Pipeline W} (hroutes : p.RoutesKeepMessage)
    {msg : Message} {k : Fin maxSinks} (h : handsTo p msg k = true) (acc : Message × W) :
    ∃ world, leaveBehind p msg acc k = (sinkTransform p k msg, world) := by
  obtain ⟨route, hroute⟩ : ∃ route, (p.sinks k).route = some route := by
    rw [← Option.isSome_iff_exists]
    exact (Bool.and_eq_true_iff.mp h).2
  refine ⟨(route (sinkTransform p k msg) acc.2).2, ?_⟩
  simp only [leaveBehind, h, hroute, if_true]
  exact Prod.ext (hroutes k route hroute _ _) rfl

section ReadOnly

variable {p : Pipeline W} (hroutes : p.RoutesKeepMessage)
  (hsinks : ∀ k f, (p.sinks k).transform = some f → KeepsRouting f)

include hroutes hsinks

theorem isolated_after_iff (msg : Message) (j : Fin maxSinks) (world : W)
    (ks : List (Fin maxSinks)) :
    Isolated p msg (sinkTransform p j msg, world) ks ↔
      (j :: ks.filter (handsTo p msg)).IsChain (Transparent p msg) := by
  induction ks generalizing j world with
  | nil => simp [Isolated]
  | cons k ks ih =>
      have hsame : handsTo p (sinkTransform p j msg) = handsTo p msg :=
        handsTo_congr (applyTransform_keepsRouting p.transformEnabled
          (hsinks j) msg).1
      cases hmsg : handsTo p msg k with
      | false => simp [Isolated, leaveBehind, hsame, hmsg, ih]
      | true =>
          obtain ⟨world', hleave⟩ :=
            leaveBehind_of_handsTo hroutes hmsg (sinkTransform p j msg, world)
          rw [List.filter_cons_of_pos hmsg, List.isChain_cons_cons, ← ih, ← hleave]
          simp only [Isolated, hsame, hmsg, true_and, true_imp_iff, Transparent]

/-- With routes that only read and transformers that keep the routing data, sinks are
isolated when each is transparent to the next. -/
theorem isolated_iff_isChain (msg : Message) (world : W) (ks : List (Fin maxSinks)) :
    Isolated p msg (msg, world) ks ↔
      (ks.filter (handsTo p msg)).IsChain (Transparent p msg) := by
  induction ks with
  | nil => simp [Isolated]
  | cons k ks ih =>
      cases hmsg : handsTo p msg k with
      | false => simp [Isolated, leaveBehind, hmsg, ih]
      | true =>
          obtain ⟨world', hleave⟩ := leaveBehind_of_handsTo hroutes hmsg (msg, world)
          rw [List.filter_cons_of_pos hmsg, ← isolated_after_iff hroutes hsinks, ← hleave]
          simp only [Isolated, true_and, implies_true]

end ReadOnly

/-- Each sink of the row is given its own transform of the inspected message exactly
when the sinks are isolated from each other; with read-only routes that is when each
sink's transform is transparent to the next sink. -/
theorem pipelinePush_isolated_iff (debug : Bool) (p : Pipeline W) (perf : Perf) {msg : Message}
    (world : W) (hsource : msg.source < maxSources)
    (haccept : (pipelineInspect p (presented p msg)).sinks.has SinkType.discard.id = false) :
    let inspected := pipelineInspect p (presented p msg)
    let ks := List.finRange maxSinks
    ∃ r, pipelinePush debug p perf msg world = .ok r ∧
      (r.calls = ownCalls p inspected ks ↔ Isolated p inspected (inspected, world) ks) ∧
      (p.RoutesKeepMessage →
        (∀ k f, (p.sinks k).transform = some f → KeepsRouting f) →
        (r.calls = ownCalls p inspected ks ↔
          (ks.filter (handsTo p inspected)).IsChain (Transparent p inspected))) := by
  intro inspected ks
  rcases pipelinePush_cases debug p perf world hsource with
    ⟨hdiscard, -⟩ | ⟨-, st, hst, hpush⟩
  · exact absurd hdiscard (by simp [haccept])
  · have hiff := pushLoop_isolated_iff inspected (List.nodup_finRange maxSinks) hst
    simp only [List.nil_append] at hiff
    exact ⟨_, hpush, hiff, fun hroutes hsinks =>
      hiff.trans (isolated_iff_isChain hroutes hsinks inspected world ks)⟩

/-- The row of the vehicle with the XOR mask on one of its sinks. -/
def maskedRow (masked : SinkType) : Pipeline Unit :=
  let route := fun (msg : Message) (world : Unit) => (msg, world)
  match configure { shippedPipeline wireCodec with transformEnabled := true }
    [.hookStdioSink SinkType.enclave.id route, .hookStdioSink SinkType.legacy.id route,
      .addTransformer .sink masked.id (xorEncode wireCodec)] with
  | .ok p => p
  | .error _ => .zero

/-- Telemetry of the vehicle. -/
def telemetry : Message :=
  { messageOfPayload [0x41] with source := SourceType.vmc.id }

/-- The record the sinks of the row are handed. -/
def shownTelemetry (p : Pipeline Unit) : Message := pipelineInspect p (presented p telemetry)

theorem xorEncode_keepsRouting (codec : MavlinkCodec) : KeepsRouting (xorEncode codec) :=
  fun _ => ⟨rfl, rfl, rfl⟩

theorem maskedRow_routesKeepMessage (masked : SinkType) :
    (maskedRow masked).RoutesKeepMessage := by
  intro k route hroute msg world
  cases masked with
  | discard | vmc | enclave | legacy =>
      match k with
      | ⟨0, _⟩ | ⟨1, _⟩ => cases hroute
      | ⟨2, _⟩ | ⟨3, _⟩ =>
          cases hroute
          rfl

/-- The mask is the only transformer of the row. -/
theorem maskedRow_transform (masked : SinkType) (k : Fin maxSinks) :
    ((maskedRow masked).sinks k).transform =
      if k.val = masked.id then some (xorEncode wireCodec) else none := by
  cases masked with
  | discard | vmc | enclave | legacy =>
      match k with
      | ⟨0, _⟩ | ⟨1, _⟩ | ⟨2, _⟩ | ⟨3, _⟩ => rfl

theorem maskedRow_keepsRouting {masked : SinkType} (k : Fin maxSinks) (f : Message → Message)
    (hf : ((maskedRow masked).sinks k).transform = some f) : KeepsRouting f := by
  rw [maskedRow_transform] at hf
  split at hf
  · cases hf
    exact xorEncode_keepsRouting wireCodec
  · cases hf

/-- The row hands telemetry to the sinks of the enclave and the legacy components. -/
theorem filter_handsTo_maskedRow (masked : SinkType) :
    (List.finRange maxSinks).filter
        (handsTo (maskedRow masked) (pipelineInspect (maskedRow masked)
          (presented (maskedRow masked) telemetry))) =
      [⟨2, by decide⟩, ⟨3, by decide⟩] := by
  cases masked <;> decide +kernel

/-- A mask on the last sink of the row only is seen by that sink only. -/
theorem pipelinePush_maskedLegacy :
    ∃ r, pipelinePush false (maskedRow .legacy) perfInit telemetry () = .ok r ∧
      r.calls = ownCalls (maskedRow .legacy) (shownTelemetry (maskedRow .legacy))
        (List.finRange maxSinks) := by
  have hsource : telemetry.source < maxSources := by decide
  obtain ⟨r, hpush, -, hcalls⟩ := pipelinePush_isolated_iff false (maskedRow .legacy) perfInit
    () hsource (by decide +kernel)
  refine ⟨r, hpush, ?_⟩
  apply (hcalls (maskedRow_routesKeepMessage .legacy) maskedRow_keepsRouting).mpr
  rw [filter_handsTo_maskedRow, List.isChain_cons_cons]
  exact ⟨rfl, .singleton _⟩

/-- With the mask on the enclave sink the legacy sink is handed the masked payload. -/
theorem not_isolated_maskedEnclave :
    (maskedRow .enclave).transformEnabled = true ∧
    (shownTelemetry (maskedRow .enclave)).sinks.has SinkType.discard.id = false ∧
    ∃ r, pipelinePush false (maskedRow .enclave) perfInit telemetry () = .ok r ∧
      r.calls ≠ ownCalls (maskedRow .enclave) (shownTelemetry (maskedRow .enclave))
        (List.finRange maxSinks) := by
  have haccept : (shownTelemetry (maskedRow .enclave)).sinks.has SinkType.discard.id = false := by
    decide +kernel
  refine ⟨rfl, haccept, ?_⟩
  have hsource : telemetry.source < maxSources := by decide
  rcases pipelinePush_cases false (maskedRow .enclave) perfInit () hsource with
    ⟨hdiscard, -⟩ | ⟨-, st, hst, hpush⟩
  · exact absurd (hdiscard.symm.trans haccept) (by decide)
  · refine ⟨_, hpush, ?_⟩
    intro hcalls
    have hisolated := (pushLoop_isolated_iff (shownTelemetry (maskedRow .enclave))
      (List.nodup_finRange maxSinks) hst).mp hcalls
    have hchain := (isolated_iff_isChain (maskedRow_routesKeepMessage .enclave)
      maskedRow_keepsRouting _ _ _).mp hisolated
    rw [shownTelemetry, filter_handsTo_maskedRow, List.isChain_cons_cons] at hchain
    -- the legacy sink has no transformer, so its call shows what the mask left
    have hunmasked : xorEncode wireCodec (shownTelemetry (maskedRow .enclave)) =
        shownTelemetry (maskedRow .enclave) := hchain.1
    have hmasked := (xorRefinalize_spec wireCodec_finalizesMavlink2
      (show (shownTelemetry (maskedRow .enclave)).status.OutMavlink2 from rfl)).payload 0
    rw [← xorEncode, hunmasked] at hmasked
    exact absurd (hmasked (by decide +kernel)) (by decide +kernel)

end SecureGateway
