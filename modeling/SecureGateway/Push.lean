import SecureGateway.Perf
import SecureGateway.Policies

/-!
# Routing, inspection and delivery of one message

`pipeline_push` looks up the route of a message, has the policies inspect it and
hands it to the sinks of its route. The record it works on is the one the source
keeps for all its messages; every step below writes that record.

## Implementation notes

The result keeps the record as inspected and the route calls in the order they
were made, each with the record as handed over. A call the `DEBUG` build makes
on the discard sink is kept apart. `judge` and `handOver` restate the policy and
sink loops as functions of the message alone.
-/

namespace SecureGateway

open Library

variable {W : Type}

/-- `if (transform_enabled && transform != NULL) transform(msg)`. -/
def applyTransform (enabled : Bool) (transform : Option (Message → Message))
    (msg : Message) : Message :=
  match transform with
  | some f => if enabled then f msg else msg
  | none => msg

def routeTableRoute (routeTable : RouteTable) (msg : Message) : Except Fault Message :=
  if h : msg.source < maxSources then
    .ok { msg with sinks := routeTable.table ⟨msg.source, h⟩ }
  else .error .assertFailed

/-- The loop of `pipeline_inspect`: the attribute word only gains bits, and the
first failed check sets the discard bit and ends the loop. -/
def inspectLoop : List SecurityPolicy → Message → Message
  | [], msg => msg
  | policy :: rest, msg =>
      if !policy.matchFn msg then inspectLoop rest msg
      else
        let (isSecure, attr) := policy.check msg msg.attr
        let msg := { msg with attr := msg.attr ||| attr }
        if !isSecure then { msg with sinks := bitmapSet msg.sinks SinkType.discard.id }
        else inspectLoop rest msg

def pipelineInspect (pipeline : Pipeline W) (msg : Message) : Message :=
  if pipeline.policyEnabled = false then msg
  else inspectLoop pipeline.policies.policies msg

/-- The record, the world and the calls so far while the sinks are visited. -/
structure PushState (W : Type) where
  msg : Message
  world : W
  perf : Perf
  calls : List (Fin maxSinks × Message)

/-- One iteration of the sink loop of `pipeline_push`. -/
def pushSink (pipeline : Pipeline W) (st : PushState W) (i : Fin maxSinks) :
    Except Fault (PushState W) :=
  if bitmapTest st.msg.sinks i.val ≠ 0#32 then do
    let k ← sinkGet i.val
    match (pipeline.sinks k).route with
    | none => return st
    | some route =>
        let msg := applyTransform pipeline.transformEnabled (pipeline.sinks k).transform st.msg
        let (msg', world) := route msg st.world
        let perf ← perfPortUnitUpdate st.perf .sink i.val msg'
        return { msg := msg', world := world, perf := perf, calls := st.calls ++ [(k, msg)] }
  else return st

/-- What `pipeline_push` leaves behind. -/
structure PushResult (W : Type) where
  msg : Message
  world : W
  perf : Perf
  inspected : Message
  calls : List (Fin maxSinks × Message)
  discardLog : Option Message

/-- The branch of `pipeline_push` for a message marked for discard. -/
def pushDiscard (debug : Bool) (pipeline : Pipeline W) (perf : Perf) (msg : Message)
    (world : W) : Except Fault (PushResult W) :=
  if debug then do
    let k ← sinkGet SinkType.discard.id
    match (pipeline.sinks k).route with
    | none =>
        return { msg := msg, world := world, perf := perf, inspected := msg, calls := []
                 discardLog := none }
    | some route =>
        return { msg := (route msg world).1, world := (route msg world).2, perf := perf
                 inspected := msg, calls := [], discardLog := some msg }
  else
    return { msg := msg, world := world, perf := perf, inspected := msg, calls := []
             discardLog := none }

def pipelinePush (debug : Bool) (pipeline : Pipeline W) (perf : Perf) (msg : Message)
    (world : W) : Except Fault (PushResult W) := do
  let msg ← routeTableRoute pipeline.routeTable msg
  let msg := pipelineInspect pipeline msg
  if bitmapTest msg.sinks SinkType.discard.id ≠ 0#32 then
    pushDiscard debug pipeline perf msg world
  else
    let st ← (List.finRange maxSinks).foldlM (pushSink pipeline) ⟨msg, world, perf, []⟩
    return { msg := st.msg, world := st.world, perf := st.perf, inspected := msg
             calls := st.calls, discardLog := none }

/-! ### Inspection -/

/-- The verdict of a policy list on a message and the attribute word it leaves. -/
def judge : List SecurityPolicy → Message → Bool × BitVec 64
  | [], msg => (true, msg.attr)
  | policy :: rest, msg =>
      if policy.matchFn msg then
        let (isSecure, attr) := policy.check msg msg.attr
        if isSecure then judge rest { msg with attr := msg.attr ||| attr }
        else (false, msg.attr ||| attr)
      else judge rest msg

/-- Inspection writes the attribute word and the discard bit, nothing else. -/
theorem inspectLoop_eq (policies : List SecurityPolicy) (msg : Message) :
    inspectLoop policies msg =
      { msg with
        attr := (judge policies msg).2
        sinks := if (judge policies msg).1 then msg.sinks
          else bitmapSet msg.sinks SinkType.discard.id } := by
  induction policies generalizing msg with
  | nil => simp [inspectLoop, judge]
  | cons policy rest ih =>
      cases hmatch : policy.matchFn msg with
      | false => simp [inspectLoop, judge, hmatch, ih]
      | true =>
          cases hcheck : (policy.check msg msg.attr).1 with
          | false => simp [inspectLoop, judge, hmatch, hcheck]
          | true => simp [inspectLoop, judge, hmatch, hcheck, ih]

/-- The attribute word only gains bits. -/
theorem judge_attr_mono (policies : List SecurityPolicy) (msg : Message) :
    msg.attr ||| (judge policies msg).2 = (judge policies msg).2 := by
  induction policies generalizing msg with
  | nil => simp [judge]
  | cons policy rest ih =>
      cases hmatch : policy.matchFn msg with
      | false => simpa [judge, hmatch] using ih msg
      | true =>
          cases hcheck : (policy.check msg msg.attr).1 with
          | false => simp [judge, hmatch, hcheck, ← BitVec.or_assoc]
          | true =>
              have hrest := ih { msg with attr := msg.attr ||| (policy.check msg msg.attr).2 }
              simp only [judge, hmatch, hcheck, if_true]
              rw [← hrest, ← BitVec.or_assoc, ← BitVec.or_assoc, BitVec.or_self]

/-- Checks that leave the attribute word alone leave it to the message. -/
theorem judge_snd_of_keep {policies : List SecurityPolicy}
    (h : ∀ policy ∈ policies, ∀ msg a, (policy.check msg a).2 = a) (msg : Message) :
    (judge policies msg).2 = msg.attr := by
  induction policies generalizing msg with
  | nil => rfl
  | cons policy rest ih =>
      have hrest := ih (fun q hq => h q (List.mem_cons_of_mem policy hq))
      have hkeep := h policy List.mem_cons_self msg msg.attr
      cases hmatch : policy.matchFn msg with
      | false => simp [judge, hmatch, hrest]
      | true =>
          cases hcheck : (policy.check msg msg.attr).1 with
          | false => simp [judge, hmatch, hcheck, hkeep]
          | true => simp [judge, hmatch, hcheck, hkeep, hrest]

/-- When verdicts do not read the attribute word, a message is rejected exactly
when some policy that matches it rejects it. -/
theorem judge_fst (policies : List SecurityPolicy) (msg : Message)
    (h : ∀ policy ∈ policies, policy.VerdictIgnoresAttr) :
    (judge policies msg).1 = !policies.any fun policy => policy.rejects msg := by
  induction policies generalizing msg with
  | nil => rfl
  | cons policy rest ih =>
      have hrest := fun q hq => h q (List.mem_cons_of_mem policy hq)
      cases hmatch : policy.matchFn msg with
      | false => simp [judge, SecurityPolicy.rejects, hmatch, ih msg hrest]
      | true =>
          cases hcheck : (policy.check msg msg.attr).1 with
          | false => simp [judge, SecurityPolicy.rejects, hmatch, hcheck]
          | true =>
              let msg' := { msg with attr := msg.attr ||| (policy.check msg msg.attr).2 }
              have hsame : (rest.any fun q => q.rejects msg') =
                  rest.any fun q => q.rejects msg := by
                rw [Bool.eq_iff_iff, List.any_eq_true, List.any_eq_true]
                refine exists_congr fun q => and_congr_right fun hq => ?_
                obtain ⟨hm, hc⟩ := hrest q hq msg msg'.attr msg'.attr
                simp only [SecurityPolicy.rejects]
                rw [show q.matchFn msg' = q.matchFn msg from hm,
                  show (q.check msg' msg'.attr).1 = (q.check msg msg.attr).1 from hc]
              calc
                (judge (policy :: rest) msg).1 = (judge rest msg').1 := by
                  simp [judge, hmatch, hcheck, msg']
                _ = !rest.any fun q => q.rejects msg' := ih msg' hrest
                _ = !rest.any fun q => q.rejects msg := by rw [hsame]
                _ = !(policy :: rest).any fun q => q.rejects msg := by
                  simp [SecurityPolicy.rejects, hmatch, hcheck]

/-- An inspected message is marked for discard when its route already is or the
policies reject it. -/
theorem pipelineInspect_has_discard (p : Pipeline W) (msg : Message) :
    (pipelineInspect p msg).sinks.has SinkType.discard.id =
      (msg.sinks.has SinkType.discard.id ||
        (p.policyEnabled && !(judge p.policies.policies msg).1)) := by
  have hlen : SinkType.discard.id < bitmapMaxLen := by decide
  unfold pipelineInspect
  cases hen : p.policyEnabled with
  | false => simp
  | true =>
      rw [if_neg (by simp), inspectLoop_eq]
      cases (judge p.policies.policies msg).1 with
      | false => simp [has_bitmapSet _ hlen]
      | true => simp

/-- Inspection leaves every other sink of the route as it was. -/
theorem pipelineInspect_has (p : Pipeline W) (msg : Message) {k : Nat}
    (hk : k < maxSinks) (hne : k ≠ SinkType.discard.id) :
    (pipelineInspect p msg).sinks.has k = msg.sinks.has k := by
  have hlen : k < bitmapMaxLen := Nat.lt_of_lt_of_le hk (by decide)
  unfold pipelineInspect
  split
  · rfl
  · rw [inspectLoop_eq]
    cases (judge p.policies.policies msg).1 with
    | false => simp [has_bitmapSet _ hlen, hne]
    | true => simp

@[simp] theorem pipelineInspect_source (p : Pipeline W) (msg : Message) :
    (pipelineInspect p msg).source = msg.source := by
  unfold pipelineInspect
  split
  · rfl
  · rw [inspectLoop_eq]

@[simp] theorem pipelineInspect_msg (p : Pipeline W) (msg : Message) :
    (pipelineInspect p msg).msg = msg.msg := by
  unfold pipelineInspect
  split
  · rfl
  · rw [inspectLoop_eq]

theorem pipelineInspect_attr (p : Pipeline W) (msg : Message) :
    (pipelineInspect p msg).attr =
      if p.policyEnabled then (judge p.policies.policies msg).2 else msg.attr := by
  unfold pipelineInspect
  cases p.policyEnabled with
  | false => rfl
  | true => simp [inspectLoop_eq]

/-! ### Delivery -/

/-- Whether the loop hands the message to a sink: its bit is set and it has a
route operation. -/
def handsTo (pipeline : Pipeline W) (msg : Message) (k : Fin maxSinks) : Bool :=
  msg.sinks.has k.val && (pipeline.sinks k).route.isSome

/-- The message as a sink's own transformer leaves it. -/
def sinkTransform (pipeline : Pipeline W) (k : Fin maxSinks) (msg : Message) : Message :=
  applyTransform pipeline.transformEnabled (pipeline.sinks k).transform msg

/-- What one iteration of the sink loop does. -/
theorem pushSink_cases (p : Pipeline W) (st : PushState W) (k : Fin maxSinks) :
    (handsTo p st.msg k = false ∧ pushSink p st k = .ok st) ∨
    ∃ route perf, handsTo p st.msg k = true ∧ (p.sinks k).route = some route ∧
      pushSink p st k = .ok
        { msg := (route (sinkTransform p k st.msg) st.world).1
          world := (route (sinkTransform p k st.msg) st.world).2
          perf := perf
          calls := st.calls ++ [(k, sinkTransform p k st.msg)] } := by
  have hk : k.val < 32 := Nat.lt_of_lt_of_le k.isLt (by decide)
  unfold pushSink
  by_cases hbit : bitmapTest st.msg.sinks k.val ≠ 0#32
  · have hhas := (bitmapTest_ne_zero_iff _ hk).mp hbit
    rw [if_pos hbit, sinkGet_val, ok_bind]
    cases hroute : (p.sinks k).route with
    | none => exact Or.inl ⟨by simp [handsTo, hroute], rfl⟩
    | some route =>
        obtain ⟨perf, hperf⟩ := exists_perfPortUnitUpdate st.perf .sink
          (route (sinkTransform p k st.msg) st.world).1 k.isLt
        refine Or.inr ⟨route, perf, by simp [handsTo, hhas, hroute], rfl, ?_⟩
        simp only [sinkTransform] at hperf ⊢
        simp only [hperf, ok_bind]
        rfl
  · have hhas := (bitmapTest_eq_zero_iff _ hk).mp (not_not.mp hbit)
    rw [if_neg hbit]
    exact Or.inl ⟨by simp [handsTo, hhas], rfl⟩

/-- The sink loop never fails. -/
theorem exists_pushLoop (p : Pipeline W) (st : PushState W) (ks : List (Fin maxSinks)) :
    ∃ st', ks.foldlM (pushSink p) st = .ok st' := by
  induction ks generalizing st with
  | nil => exact ⟨st, rfl⟩
  | cons k ks ih =>
      rw [List.foldlM_cons]
      rcases pushSink_cases p st k with ⟨-, hstep⟩ | ⟨route, perf, -, -, hstep⟩
      · rw [hstep, ok_bind]
        exact ih st
      · rw [hstep, ok_bind]
        exact ih _

/-- The sink loop only adds calls, each on a sink it visits. -/
theorem pushLoop_extends {p : Pipeline W} {ks : List (Fin maxSinks)} {st st' : PushState W}
    (h : ks.foldlM (pushSink p) st = .ok st') :
    ∃ more, st'.calls = st.calls ++ more ∧ ∀ c ∈ more, c.1 ∈ ks := by
  induction ks generalizing st with
  | nil =>
      cases h
      exact ⟨[], by simp⟩
  | cons k ks ih =>
      rw [List.foldlM_cons] at h
      rcases pushSink_cases p st k with ⟨-, hstep⟩ | ⟨route, perf, -, -, hstep⟩
      · rw [hstep, ok_bind] at h
        obtain ⟨more, hcalls, hmem⟩ := ih h
        exact ⟨more, hcalls, fun c hc => List.mem_cons_of_mem k (hmem c hc)⟩
      · rw [hstep, ok_bind] at h
        obtain ⟨more, hcalls, hmem⟩ := ih h
        refine ⟨(k, sinkTransform p k st.msg) :: more, by rw [hcalls]; simp, ?_⟩
        intro c hc
        rcases List.mem_cons.mp hc with rfl | hc
        · exact List.mem_cons_self
        · exact List.mem_cons_of_mem k (hmem c hc)

/-- The loop makes no call exactly when no sink it visits is to be handed the message. -/
theorem pushLoop_calls_eq_nil_iff {p : Pipeline W} {ks : List (Fin maxSinks)}
    {st st' : PushState W} (hst : st.calls = [])
    (h : ks.foldlM (pushSink p) st = .ok st') :
    st'.calls = [] ↔ ∀ k ∈ ks, handsTo p st.msg k = false := by
  induction ks generalizing st with
  | nil =>
      cases h
      simp [hst]
  | cons k ks ih =>
      rw [List.foldlM_cons] at h
      rcases pushSink_cases p st k with ⟨hno, hstep⟩ | ⟨route, perf, hyes, -, hstep⟩
      · rw [hstep, ok_bind] at h
        rw [ih hst h]
        simp [hno]
      · rw [hstep, ok_bind] at h
        obtain ⟨more, hcalls, -⟩ := pushLoop_extends h
        simp [hcalls, hyes]

/-- A callback on the record that writes only the MAVLink message and its status. -/
def KeepsRouting (f : Message → Message) : Prop :=
  ∀ msg, (f msg).sinks = msg.sinks ∧ (f msg).source = msg.source ∧ (f msg).attr = msg.attr

/-- Every installed callback writes only the MAVLink message and its status. -/
structure Pipeline.OpsKeepRouting (pipeline : Pipeline W) : Prop where
  source : ∀ i f, (pipeline.sources i).transform = some f → KeepsRouting f
  sink : ∀ k f, (pipeline.sinks k).transform = some f → KeepsRouting f
  route : ∀ k r, (pipeline.sinks k).route = some r →
    ∀ world, KeepsRouting fun msg => (r msg world).1

/-- Every installed route operation only reads the message it is given. -/
def Pipeline.RoutesKeepMessage (pipeline : Pipeline W) : Prop :=
  ∀ k r, (pipeline.sinks k).route = some r → ∀ msg world, (r msg world).1 = msg

/-- Routes that only read leave it to the transformers to keep the routing data. -/
theorem Pipeline.RoutesKeepMessage.opsKeepRouting {p : Pipeline W} (h : p.RoutesKeepMessage)
    (hsource : ∀ i f, (p.sources i).transform = some f → KeepsRouting f)
    (hsink : ∀ k f, (p.sinks k).transform = some f → KeepsRouting f) : p.OpsKeepRouting := by
  refine ⟨hsource, hsink, ?_⟩
  intro k r hr world msg
  simp only [h k r hr]
  exact ⟨trivial, trivial, trivial⟩

theorem applyTransform_keepsRouting (enabled : Bool) {transform : Option (Message → Message)}
    (h : ∀ f, transform = some f → KeepsRouting f) :
    KeepsRouting (applyTransform enabled transform) := by
  intro msg
  cases transform with
  | none => exact ⟨rfl, rfl, rfl⟩
  | some f =>
      cases enabled with
      | false => exact ⟨rfl, rfl, rfl⟩
      | true => exact h f rfl msg

theorem handsTo_congr {p : Pipeline W} {msg msg' : Message} (h : msg'.sinks = msg.sinks) :
    handsTo p msg' = handsTo p msg := by
  funext k
  simp only [handsTo, h]

/-- The sinks called are those of the route with a route operation, in order; no
callback changes which sinks are still to come. -/
theorem pushLoop_calls {p : Pipeline W} (hops : p.OpsKeepRouting) {ks : List (Fin maxSinks)}
    {st st' : PushState W} (h : ks.foldlM (pushSink p) st = .ok st') :
    st'.calls.map Prod.fst = st.calls.map Prod.fst ++ ks.filter (handsTo p st.msg) ∧
      st'.msg.sinks = st.msg.sinks ∧ st'.msg.source = st.msg.source ∧
      st'.msg.attr = st.msg.attr := by
  induction ks generalizing st with
  | nil =>
      cases h
      simp
  | cons k ks ih =>
      rw [List.foldlM_cons] at h
      rcases pushSink_cases p st k with ⟨hno, hstep⟩ | ⟨route, perf, hyes, hroute, hstep⟩
      · rw [hstep, ok_bind] at h
        obtain ⟨hcalls, hrest⟩ := ih h
        exact ⟨by rw [hcalls, List.filter_cons_of_neg (by simp [hno])], hrest⟩
      · rw [hstep, ok_bind] at h
        obtain ⟨hcalls, hsinks, hsource, hattr⟩ := ih h
        obtain ⟨ts, tsrc, ta⟩ := applyTransform_keepsRouting p.transformEnabled
          (hops.sink k) st.msg
        obtain ⟨rs, rsrc, ra⟩ := hops.route k route hroute st.world (sinkTransform p k st.msg)
        refine ⟨?_, hsinks.trans (rs.trans ts), hsource.trans (rsrc.trans tsrc),
          hattr.trans (ra.trans ta)⟩
        rw [hcalls, handsTo_congr (rs.trans ts), List.filter_cons_of_pos hyes]
        simp

/-- An accepted message is handed to the sinks it was routed to. -/
theorem handsTo_pipelineInspect {p : Pipeline W} {msg : Message}
    (h : (pipelineInspect p msg).sinks.has SinkType.discard.id = false) :
    handsTo p (pipelineInspect p msg) = handsTo p msg := by
  funext k
  simp only [handsTo]
  by_cases hk : k.val = SinkType.discard.id
  · have hrow := h
    rw [pipelineInspect_has_discard, Bool.or_eq_false_iff] at hrow
    rw [hk, h, hrow.1]
  · rw [pipelineInspect_has p _ k.isLt hk]

/-- One visit of the sink loop on the record and the calls alone. -/
def handOver (pipeline : Pipeline W) (acc : Message × List (Fin maxSinks × Message))
    (k : Fin maxSinks) : Message × List (Fin maxSinks × Message) :=
  if handsTo pipeline acc.1 k then
    (sinkTransform pipeline k acc.1, acc.2 ++ [(k, sinkTransform pipeline k acc.1)])
  else acc

/-- When route operations only read the message, the record and the calls do not
depend on the world. -/
theorem pushLoop_handOver {p : Pipeline W} (hops : p.RoutesKeepMessage)
    {ks : List (Fin maxSinks)} {st st' : PushState W}
    (h : ks.foldlM (pushSink p) st = .ok st') :
    (st'.msg, st'.calls) = ks.foldl (handOver p) (st.msg, st.calls) := by
  induction ks generalizing st with
  | nil =>
      cases h
      rfl
  | cons k ks ih =>
      rw [List.foldlM_cons] at h
      rw [List.foldl_cons]
      rcases pushSink_cases p st k with ⟨hno, hstep⟩ | ⟨route, perf, hyes, hroute, hstep⟩
      · rw [hstep, ok_bind] at h
        rw [ih h, handOver, if_neg (by simp [hno])]
      · rw [hstep, ok_bind] at h
        rw [ih h, handOver, if_pos hyes]
        simp only [hops k route hroute]

/-- The row of a source id; an id out of range has none. -/
def routeOf (routeTable : RouteTable) (source : Nat) : Bitmap :=
  if h : source < maxSources then routeTable.table ⟨source, h⟩ else bitmapClear

/-- The message as the policies are shown it. -/
def presented (pipeline : Pipeline W) (msg : Message) : Message :=
  { msg with sinks := routeOf pipeline.routeTable msg.source }

theorem routeTableRoute_eq (p : Pipeline W) {msg : Message} (h : msg.source < maxSources) :
    routeTableRoute p.routeTable msg = .ok (presented p msg) := by
  simp [routeTableRoute, presented, routeOf, h]

/-- A discarded message reaches the discard log at most. -/
theorem pushDiscard_cases (debug : Bool) (p : Pipeline W) (perf : Perf) (msg : Message)
    (world : W) :
    ∃ r, pushDiscard debug p perf msg world = .ok r ∧ r.inspected = msg ∧ r.calls = [] ∧
      (r.msg = msg ∧ r.discardLog = none ∨
        ∃ k route, debug = true ∧ (p.sinks k).route = some route ∧
          r.msg = (route msg world).1 ∧ r.discardLog = some msg) := by
  have hget : sinkGet SinkType.discard.id = .ok ⟨SinkType.discard.id, by decide⟩ := rfl
  unfold pushDiscard
  cases debug with
  | false => exact ⟨_, rfl, rfl, rfl, Or.inl ⟨rfl, rfl⟩⟩
  | true =>
      rw [if_pos rfl, hget, ok_bind]
      cases hroute : (p.sinks ⟨SinkType.discard.id, by decide⟩).route with
      | none => exact ⟨_, rfl, rfl, rfl, Or.inl ⟨rfl, rfl⟩⟩
      | some route => exact ⟨_, rfl, rfl, rfl, Or.inr ⟨_, route, rfl, hroute, rfl, rfl⟩⟩

/-- What `pipeline_push` does with a message whose source id is in range. -/
theorem pipelinePush_cases (debug : Bool) (p : Pipeline W) (perf : Perf) {msg : Message}
    (world : W) (h : msg.source < maxSources) :
    let inspected := pipelineInspect p (presented p msg)
    (inspected.sinks.has SinkType.discard.id = true ∧
      pipelinePush debug p perf msg world = pushDiscard debug p perf inspected world) ∨
    (inspected.sinks.has SinkType.discard.id = false ∧ ∃ st,
      (List.finRange maxSinks).foldlM (pushSink p) ⟨inspected, world, perf, []⟩ = .ok st ∧
      pipelinePush debug p perf msg world = .ok
        { msg := st.msg, world := st.world, perf := st.perf, inspected := inspected
          calls := st.calls, discardLog := none }) := by
  intro inspected
  have hpush : pipelinePush debug p perf msg world =
      if bitmapTest inspected.sinks SinkType.discard.id ≠ 0#32 then
        pushDiscard debug p perf inspected world
      else do
        let st ← (List.finRange maxSinks).foldlM (pushSink p) ⟨inspected, world, perf, []⟩
        return { msg := st.msg, world := st.world, perf := st.perf, inspected := inspected
                 calls := st.calls, discardLog := none } := by
    unfold pipelinePush
    rw [routeTableRoute_eq p h, ok_bind]
  by_cases hbit : bitmapTest inspected.sinks SinkType.discard.id ≠ 0#32
  · have hhas := (bitmapTest_ne_zero_iff inspected.sinks (by decide)).mp hbit
    exact Or.inl ⟨hhas, by rw [hpush, if_pos hbit]⟩
  · have hhas := (bitmapTest_eq_zero_iff inspected.sinks (by decide)).mp (not_not.mp hbit)
    obtain ⟨st, hst⟩ := exists_pushLoop p ⟨inspected, world, perf, []⟩ (List.finRange maxSinks)
    refine Or.inr ⟨hhas, st, hst, ?_⟩
    rw [hpush, if_neg hbit, hst]
    rfl

/-- With a source id in range `pipeline_push` never fails. -/
theorem exists_pipelinePush (debug : Bool) (p : Pipeline W) (perf : Perf) (msg : Message)
    (world : W) (h : msg.source < maxSources) :
    ∃ r, pipelinePush debug p perf msg world = .ok r := by
  rcases pipelinePush_cases debug p perf world h with ⟨-, hpush⟩ | ⟨-, st, -, hpush⟩
  · obtain ⟨r, hr, -⟩ := pushDiscard_cases debug p perf (pipelineInspect p (presented p msg)) world
    exact ⟨r, hpush.trans hr⟩
  · exact ⟨_, hpush⟩

/-- The two ways a push ends: on the discard branch, or after the sink loop. -/
theorem pipelinePush_ok_cases {debug : Bool} {p : Pipeline W} {perf : Perf} {msg : Message}
    {world : W} {r : PushResult W} (h : msg.source < maxSources)
    (hpush : pipelinePush debug p perf msg world = .ok r) :
    r.inspected = pipelineInspect p (presented p msg) ∧
      ((r.inspected.sinks.has SinkType.discard.id = true ∧ r.calls = [] ∧
          (r.msg = r.inspected ∨ ∃ k route, (p.sinks k).route = some route ∧
            r.msg = (route r.inspected world).1)) ∨
        (r.inspected.sinks.has SinkType.discard.id = false ∧ ∃ st,
          (List.finRange maxSinks).foldlM (pushSink p) ⟨r.inspected, world, perf, []⟩ = .ok st ∧
          r.msg = st.msg ∧ r.calls = st.calls)) := by
  rcases pipelinePush_cases debug p perf world h with ⟨hdisc, hcase⟩ | ⟨hdisc, st, hst, hcase⟩
  · obtain ⟨r', hr', hinsp, hcalls, hmsg⟩ :=
      pushDiscard_cases debug p perf (pipelineInspect p (presented p msg)) world
    cases (hpush.symm.trans (hcase.trans hr'))
    rw [hinsp]
    refine ⟨rfl, Or.inl ⟨hdisc, hcalls, ?_⟩⟩
    rcases hmsg with ⟨hmsg, -⟩ | ⟨k, route, -, hroute, hmsg, -⟩
    · exact Or.inl hmsg
    · exact Or.inr ⟨k, route, hroute, hmsg⟩
  · cases (hpush.symm.trans hcase)
    exact ⟨rfl, Or.inr ⟨hdisc, st, hst, rfl, rfl⟩⟩

theorem pipelinePush_inspected {debug : Bool} {p : Pipeline W} {perf : Perf} {msg : Message}
    {world : W} {r : PushResult W} (h : msg.source < maxSources)
    (hpush : pipelinePush debug p perf msg world = .ok r) :
    r.inspected = pipelineInspect p (presented p msg) :=
  (pipelinePush_ok_cases h hpush).1

/-- The sinks a message is handed to: none when it is marked for discard, else
those of its route that have a route operation. -/
theorem pipelinePush_calls {debug : Bool} {p : Pipeline W} (hops : p.OpsKeepRouting)
    {perf : Perf} {msg : Message} {world : W} {r : PushResult W}
    (h : msg.source < maxSources) (hpush : pipelinePush debug p perf msg world = .ok r) :
    r.calls.map Prod.fst =
      if r.inspected.sinks.has SinkType.discard.id then []
      else (List.finRange maxSinks).filter (handsTo p r.inspected) := by
  obtain ⟨-, ⟨hdisc, hcalls, -⟩ | ⟨hdisc, st, hst, -, hcalls⟩⟩ := pipelinePush_ok_cases h hpush
  · rw [hcalls, if_pos hdisc]
    rfl
  · rw [hcalls, if_neg (by simp [hdisc])]
    simpa using (pushLoop_calls hops hst).1

/-- When a message reaches no sink, whatever the callbacks do to the record. -/
theorem pipelinePush_calls_eq_nil_iff {debug : Bool} {p : Pipeline W} {perf : Perf}
    {msg : Message} {world : W} {r : PushResult W} (h : msg.source < maxSources)
    (hpush : pipelinePush debug p perf msg world = .ok r) :
    r.calls = [] ↔ r.inspected.sinks.has SinkType.discard.id = true ∨
      ∀ k, handsTo p r.inspected k = false := by
  obtain ⟨-, ⟨hdisc, hcalls, -⟩ | ⟨hdisc, st, hst, -, hcalls⟩⟩ := pipelinePush_ok_cases h hpush
  · simp [hcalls, hdisc]
  · simpa [hcalls, hdisc] using pushLoop_calls_eq_nil_iff rfl hst

/-- A release build logs no rejected message. -/
theorem pipelinePush_release_discardLog {p : Pipeline W} {perf : Perf} {msg : Message} {world : W}
    {r : PushResult W} (h : msg.source < maxSources)
    (hpush : pipelinePush false p perf msg world = .ok r) : r.discardLog = none := by
  obtain ⟨-, hcase⟩ | ⟨-, st, -, hcase⟩ := pipelinePush_cases false p perf world h
  · cases hpush.symm.trans hcase
    rfl
  · cases hpush.symm.trans hcase
    rfl

/-- Delivery leaves the attribute word as inspection wrote it. -/
theorem pipelinePush_attr {debug : Bool} {p : Pipeline W} (hops : p.OpsKeepRouting)
    {perf : Perf} {msg : Message} {world : W} {r : PushResult W}
    (h : msg.source < maxSources) (hpush : pipelinePush debug p perf msg world = .ok r) :
    r.msg.attr = r.inspected.attr := by
  obtain ⟨-, ⟨-, -, hmsg | ⟨k, route, hroute, hmsg⟩⟩ | ⟨-, st, hst, hmsg, -⟩⟩ :=
    pipelinePush_ok_cases h hpush
  · rw [hmsg]
  · rw [hmsg]
    exact (hops.route k route hroute world _).2.2
  · rw [hmsg]
    exact (pushLoop_calls hops hst).2.2.2

/-- Whether a message may leave the gateway: its route is not the discard sink,
and no policy that matches it rejects it while inspection is on. -/
def admits (policyEnabled : Bool) (policies : List SecurityPolicy) (msg : Message) : Bool :=
  !msg.sinks.has SinkType.discard.id &&
    (!policyEnabled || !policies.any fun policy => policy.rejects msg)

/-- The sinks called, in terms of the message as the policies are shown it. -/
theorem pipelinePush_sinks {debug : Bool} {p : Pipeline W} (hops : p.OpsKeepRouting)
    (hverdict : ∀ policy ∈ p.policies.policies, policy.VerdictIgnoresAttr)
    {perf : Perf} {msg : Message} {world : W} {r : PushResult W}
    (h : msg.source < maxSources) (hpush : pipelinePush debug p perf msg world = .ok r) :
    r.calls.map Prod.fst =
      if admits p.policyEnabled p.policies.policies (presented p msg) then
        (List.finRange maxSinks).filter (handsTo p (presented p msg))
      else [] := by
  have hdisc := pipelineInspect_has_discard p (presented p msg)
  rw [judge_fst _ _ hverdict, ← pipelinePush_inspected h hpush] at hdisc
  rw [pipelinePush_calls hops h hpush]
  cases hadmit : admits p.policyEnabled p.policies.policies (presented p msg) with
  | false =>
      have hset : r.inspected.sinks.has SinkType.discard.id = true := by
        rw [hdisc]
        simpa [admits, imp_iff_not_or] using hadmit
      rw [if_pos hset]
      rfl
  | true =>
      have hclear : r.inspected.sinks.has SinkType.discard.id = false := by
        rw [hdisc]
        simpa [admits, imp_iff_not_or] using hadmit
      rw [if_neg (by simp [hclear]), if_pos rfl]
      rw [pipelinePush_inspected h hpush] at hclear ⊢
      rw [handsTo_pipelineInspect hclear]

/-! ### The world and the counters -/

/-- A property of the world and the counters that no route operation breaks, nor the count of
a message handed to a sink. -/
structure Pipeline.SinksKeep (pipeline : Pipeline W) (Q : W → Perf → Prop) : Prop where
  route : ∀ k r, (pipeline.sinks k).route = some r →
    ∀ msg world perf, Q world perf → Q (r msg world).2 perf
  count : ∀ world perf id msg perf', Q world perf →
    perfPortUnitUpdate perf .sink id msg = .ok perf' → Q world perf'

section SinksKeep

variable {p : Pipeline W} {Q : W → Perf → Prop} (hkeep : p.SinksKeep Q)

include hkeep

theorem pushSink_keeps {st st' : PushState W} {k : Fin maxSinks} (hst : Q st.world st.perf)
    (h : pushSink p st k = .ok st') : Q st'.world st'.perf := by
  unfold pushSink at h
  split at h
  · obtain ⟨k', -, h⟩ := bind_eq_ok_iff.mp h
    split at h
    · cases h
      exact hst
    · rename_i route hroute
      obtain ⟨perf, hperf, h⟩ := bind_eq_ok_iff.mp h
      cases h
      exact hkeep.count _ _ _ _ _ (hkeep.route k' route hroute _ _ _ hst) hperf
  · cases h
    exact hst

theorem pushDiscard_keeps {debug : Bool} {perf : Perf} {msg : Message} {world : W}
    {r : PushResult W} (hst : Q world perf) (h : pushDiscard debug p perf msg world = .ok r) :
    Q r.world r.perf := by
  unfold pushDiscard at h
  split at h
  · obtain ⟨k, -, h⟩ := bind_eq_ok_iff.mp h
    split at h
    · cases h
      exact hst
    · rename_i route hroute
      cases h
      exact hkeep.route k route hroute _ _ _ hst
  · cases h
    exact hst

theorem pipelinePush_keeps {debug : Bool} {perf : Perf} {msg : Message} {world : W}
    {r : PushResult W} (hst : Q world perf) (h : pipelinePush debug p perf msg world = .ok r) :
    Q r.world r.perf := by
  obtain ⟨routed, -, h⟩ := bind_eq_ok_iff.mp h
  dsimp only at h
  split at h
  · exact pushDiscard_keeps hkeep hst h
  · obtain ⟨st, hloop, h⟩ := bind_eq_ok_iff.mp h
    cases h
    exact foldlM_invariant (fun _ _ _ _ hb hstep => pushSink_keeps hkeep hb hstep) hst hloop

end SinksKeep

end SecureGateway
