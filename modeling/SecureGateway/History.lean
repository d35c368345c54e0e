import SecureGateway.Library.Settling
import SecureGateway.Mediation

/-!
# Treatment and history

A source keeps one record for all its messages. Parsing, stamping and routing write
every part of it again except the attribute word, to which inspection only adds. A
message's treatment is free of the messages before it exactly when that word settles.
-/

namespace SecureGateway

open Library

variable {W : Type}

/-- A message and the status it was parsed with. -/
abbrev Parsed := MavlinkMessage × MavlinkStatus

/-- What a source leaves behind between two of its messages. -/
structure SourceState (W : Type) where
  cur : Message
  perf : Perf
  world : W

/-- The next message of a source: the parser writes the record, then it is delivered. -/
def pushNext (debug : Bool) (pipeline : Pipeline W) (i : Fin maxSources) (st : SourceState W)
    (parsed : Parsed) : Except Fault (Delivery × SourceState W) := do
  let (d, r) ← deliver debug pipeline i st.perf
    { st.cur with msg := parsed.1, status := parsed.2 } st.world
  return (d, { cur := r.msg, perf := r.perf, world := r.world })

/-- A byte that completes a message pushes it as the next one of its source. -/
theorem spinByte_pushNext {G : Type} {env : Env W G} {i : Fin maxSources} {byte : UInt8}
    {m : Machine W G} (h : (parseResult env i byte m).rv = .ok) :
    spinByte env i byte m = (do
      let (d, st) ← pushNext env.debug m.pipeline i
        { cur := (m.pipeline.sources i).cur, perf := m.perf.perf, world := m.world }
        ((parseResult env i byte m).msg, (parseResult env i byte m).status)
      return { pipeline := m.pipeline.setCur i st.cur
               perf := { m.perf with perf := st.perf }
               world := st.world
               parser := (parseResult env i byte m).state
               hasLoad := true
               log := m.log ++ [⟨i, byte, some d⟩] }) := by
  rw [spinByte, if_pos h, pushNext]
  simp only [bind_assoc, pure_bind]
  rfl

def pushHistory (debug : Bool) (pipeline : Pipeline W) (i : Fin maxSources)
    (st : SourceState W) (history : List Parsed) : Except Fault (SourceState W) :=
  history.foldlM (fun st parsed => do
    let (_, st) ← pushNext debug pipeline i st parsed
    return st) st

/-- How a message was treated: whether inspection accepted it, the sinks it was
handed to and the attribute word it was left with. -/
structure Treatment where
  accepted : Bool
  sinks : List (Fin maxSinks)
  attr : BitVec 64
deriving DecidableEq

/-- The treatment of a message pushed after a history of messages of its source. -/
def treatmentAfter (debug : Bool) (pipeline : Pipeline W) (i : Fin maxSources)
    (st : SourceState W) (history : List Parsed) (parsed : Parsed) : Except Fault Treatment := do
  let st ← pushHistory debug pipeline i st history
  let (d, st) ← pushNext debug pipeline i st parsed
  return { accepted := !d.inspected.sinks.has SinkType.discard.id
           sinks := d.calls.map Prod.fst
           attr := st.cur.attr }

/-- No message's treatment depends on the messages of its source before it. -/
def HistoryIndependent (debug : Bool) (pipeline : Pipeline W) (i : Fin maxSources)
    (st : SourceState W) : Prop :=
  ∀ history₁ history₂ parsed, treatmentAfter debug pipeline i st history₁ parsed =
    treatmentAfter debug pipeline i st history₂ parsed

/-- A message as the policies are shown it when its record carries an attribute word. -/
def shownWith (pipeline : Pipeline W) (i : Fin maxSources) (attr : BitVec 64)
    (parsed : Parsed) : Message :=
  shownRecord pipeline i pipeline.transformEnabled
    { Message.zero with msg := parsed.1, status := parsed.2, attr := attr }

/-- The treatment as a function of the message and the attribute word alone. -/
def treated (pipeline : Pipeline W) (i : Fin maxSources) (attr : BitVec 64)
    (parsed : Parsed) : Treatment :=
  let msg := shownWith pipeline i attr parsed
  let verdict := if pipeline.policyEnabled then judge pipeline.policies.policies msg
    else (true, msg.attr)
  { accepted := verdict.1
    sinks := if verdict.1 then (List.finRange maxSinks).filter (handsTo pipeline msg) else []
    attr := verdict.2 }

/-- A source transformer that does not look at the bitmap of the message before. -/
def IgnoresSinks (f : Message → Message) : Prop :=
  ∀ msg sinks, f { msg with sinks := sinks } = { f msg with sinks := sinks }

theorem defaultRouteTable_has_discard (i : Fin maxSources) :
    (defaultRouteTable.table i).has SinkType.discard.id = false := by
  revert i
  decide

section Treatment

variable {p : Pipeline W} {i : Fin maxSources} (hconf : p.Configured)
  (hconn : (p.sources i).isConnected) (hops : p.OpsKeepRouting)
  (hreads : ∀ f, (p.sources i).transform = some f → IgnoresSinks f)

include hconf hconn hops hreads

/-- Whatever the record held before, the policies are shown the new message with the
attribute word of the record. -/
theorem presented_next (cur : Message) (parsed : Parsed) :
    presented p (stamped p i { cur with msg := parsed.1, status := parsed.2 }) =
      shownWith p i cur.attr parsed := by
  rw [presented_stamped hconf hops hconn, shownWith]
  simp only [shownRecord]
  cases htransform : (p.sources i).transform with
  | none => rfl
  | some f =>
      cases p.transformEnabled with
      | false => rfl
      | true =>
          have hf := hreads f htransform
            { Message.zero with
              msg := parsed.1, status := parsed.2, attr := cur.attr, source := i.val } cur.sinks
          simp only [applyTransform, if_true] at hf ⊢
          rw [hf]

/-- The next message is treated as its attribute word has it. -/
theorem pushNext_spec (debug : Bool) (st : SourceState W) (parsed : Parsed) :
    ∃ d st', pushNext debug p i st parsed = .ok (d, st') ∧
      treated p i st.cur.attr parsed =
        { accepted := !d.inspected.sinks.has SinkType.discard.id
          sinks := d.calls.map Prod.fst
          attr := st'.cur.attr } := by
  let cur := { st.cur with msg := parsed.1, status := parsed.2 }
  have hlt : (stamped p i cur).source < maxSources := by
    rw [stamped_source hconf hops hconn]
    exact i.isLt
  obtain ⟨perf, hperf⟩ := exists_perfPortUnitUpdate st.perf .source
    { cur with source := (p.sources i).sourceId } i.isLt
  obtain ⟨r, hpush⟩ := exists_pipelinePush debug p perf _ st.world hlt
  have hdeliver := deliver_eq_ok_iff.mpr ⟨perf, hperf, hpush, rfl⟩
  have hshown := presented_next hconf hconn hops hreads st.cur parsed
  have hinspected := pipelinePush_inspected hlt hpush
  have hcalls := pipelinePush_calls hops hlt hpush
  have hattr := pipelinePush_attr hops hlt hpush
  rw [hshown] at hinspected
  have hrow : (shownWith p i st.cur.attr parsed).sinks.has SinkType.discard.id = false :=
    defaultRouteTable_has_discard i
  have hdiscard := pipelineInspect_has_discard p (shownWith p i st.cur.attr parsed)
  rw [hrow, Bool.false_or, ← hinspected] at hdiscard
  have hverdict : (if p.policyEnabled then
      judge p.policies.policies (shownWith p i st.cur.attr parsed)
      else (true, (shownWith p i st.cur.attr parsed).attr)) =
      (!r.inspected.sinks.has SinkType.discard.id, r.inspected.attr) := by
    rw [hdiscard, hinspected, pipelineInspect_attr]
    cases p.policyEnabled <;> simp
  refine ⟨_, _, by rw [pushNext, hdeliver, ok_bind]; rfl, ?_⟩
  rw [hattr, hcalls, treated, hverdict]
  cases hmark : r.inspected.sinks.has SinkType.discard.id with
  | false =>
      have hhands : handsTo p r.inspected = handsTo p (shownWith p i st.cur.attr parsed) := by
        rw [hinspected] at hmark ⊢
        exact handsTo_pipelineInspect hmark
      simp [hhands]
  | true => simp

/-- Only the attribute word is carried from message to message. -/
theorem pushHistory_spec (debug : Bool) (st : SourceState W) (history : List Parsed) :
    ∃ st', pushHistory debug p i st history = .ok st' ∧
      st'.cur.attr = keptAfter (treated p i) Treatment.attr st.cur.attr history := by
  induction history generalizing st with
  | nil => exact ⟨st, rfl, rfl⟩
  | cons parsed history ih =>
      obtain ⟨d, st₁, hnext, htreated⟩ := pushNext_spec hconf hconn hops hreads debug st parsed
      obtain ⟨st₂, hrest, hattr⟩ := ih st₁
      refine ⟨st₂, ?_, ?_⟩
      · rw [pushHistory, List.foldlM_cons, hnext]
        exact hrest
      · rw [hattr, keptAfter, keptAfter, List.foldl_cons, htreated]

theorem treatmentAfter_eq (debug : Bool) (st : SourceState W) (history : List Parsed)
    (parsed : Parsed) :
    treatmentAfter debug p i st history parsed =
      .ok (treated p i (keptAfter (treated p i) Treatment.attr st.cur.attr history) parsed) := by
  obtain ⟨st₁, hhistory, hattr⟩ := pushHistory_spec hconf hconn hops hreads debug st history
  obtain ⟨d, st₂, hnext, htreated⟩ := pushNext_spec hconf hconn hops hreads debug st₁ parsed
  rw [treatmentAfter, hhistory, ok_bind, hnext, ← hattr, htreated]
  rfl

end Treatment

theorem shownWith_attr {p : Pipeline W} (hops : p.OpsKeepRouting) (i : Fin maxSources)
    (attr : BitVec 64) (parsed : Parsed) : (shownWith p i attr parsed).attr = attr :=
  (applyTransform_keepsRouting p.transformEnabled (hops.source i) _).2.2

/-- Treatment is history independent exactly when the attribute word settles. -/
theorem historyIndependent_iff_settles {p : Pipeline W} {i : Fin maxSources}
    (hconf : p.Configured) (hconn : (p.sources i).isConnected) (hops : p.OpsKeepRouting)
    (hreads : ∀ f, (p.sources i).transform = some f → IgnoresSinks f) (debug : Bool)
    (st : SourceState W) :
    HistoryIndependent debug p i st ↔
      ∃ c, Settles (treated p i) Treatment.attr st.cur.attr c := by
  -- the word only gains bits
  have hgrow (attr : BitVec 64) (parsed : Parsed) :
      attr ||| (treated p i attr parsed).attr = (treated p i attr parsed).attr := by
    have hattr := shownWith_attr hops i attr parsed
    have hmono := judge_attr_mono p.policies.policies (shownWith p i attr parsed)
    rw [hattr] at hmono
    simp only [treated]
    cases p.policyEnabled with
    | false => simp [hattr]
    | true => simpa using hmono
  have hantisymm (a b : BitVec 64) (hab : a ||| b = b) (hba : b ||| a = a) : a = b := by
    rw [← hba, BitVec.or_comm, hab]
  rw [← pastFree_iff (fun a b => a ||| b = b) hantisymm hgrow]
  simp only [HistoryIndependent, PastFree,
    treatmentAfter_eq hconf hconn hops hreads, Except.ok.injEq]

/-- What it is for the word to settle, in terms of the policies. -/
theorem exists_settles_iff {p : Pipeline W} (hops : p.OpsKeepRouting) (i : Fin maxSources) :
    (∃ c, Settles (treated p i) Treatment.attr 0 c) ↔
      p.policyEnabled = false ∨ ∃ c, ∀ parsed,
        (judge p.policies.policies (shownWith p i 0 parsed)).2 = c ∧
        judge p.policies.policies (shownWith p i c parsed) =
          judge p.policies.policies (shownWith p i 0 parsed) := by
  cases hen : p.policyEnabled with
  | false =>
      refine iff_of_true ⟨0, fun parsed => ⟨?_, rfl⟩⟩ (Or.inl rfl)
      simp [treated, hen, shownWith_attr hops]
  | true =>
      have hhands (c : BitVec 64) (parsed : Parsed) :
          handsTo p (shownWith p i c parsed) = handsTo p (shownWith p i 0 parsed) :=
        handsTo_congr rfl
      have hsame (c : BitVec 64) (parsed : Parsed) :
          treated p i c parsed = treated p i 0 parsed ↔
            judge p.policies.policies (shownWith p i c parsed) =
              judge p.policies.policies (shownWith p i 0 parsed) := by
        constructor
        · intro h
          have haccepted := congrArg Treatment.accepted h
          have hattr := congrArg Treatment.attr h
          simp only [treated, hen, if_true] at haccepted hattr
          exact Prod.ext haccepted hattr
        · intro h
          simp only [treated, hen, if_true, h, hhands c parsed]
      simp only [Settles, hsame]
      simp [treated, hen]

/-- The shipped policies leave the attribute word at zero, so they treat a message
alike whatever came before it. -/
theorem shipped_historyIndependent {p : Pipeline W} {i : Fin maxSources} {codec : MavlinkCodec}
    (hconf : p.Configured) (hconn : (p.sources i).isConnected) (hops : p.OpsKeepRouting)
    (hreads : ∀ f, (p.sources i).transform = some f → IgnoresSinks f)
    (hpolicies : p.policies.policies = shippedPolicies codec) (debug : Bool)
    {st : SourceState W} (hstart : st.cur.attr = 0) : HistoryIndependent debug p i st := by
  rw [historyIndependent_iff_settles hconf hconn hops hreads, hstart, exists_settles_iff hops]
  refine Or.inr ⟨0, fun parsed => ⟨?_, rfl⟩⟩
  rw [hpolicies, judge_snd_of_keep (shippedPolicies_keep_attr codec), shownWith_attr hops]

end SecureGateway
