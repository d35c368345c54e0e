import SecureGateway.Mediation

/-!
# Non-interference between sources

What becomes of the bytes of one source is a function of those bytes alone. A run
is compared with its replay, the machine that is fed the bytes of that source and
nothing else; two runs with the same bytes from the source have the same replay.

## Implementation notes

The parser is assumed to keep its state per channel: `view` is the part of the
state that belongs to a channel. Replays differ from runs in the world and in the
counters, which no delivery depends on when route operations only read.
-/

namespace SecureGateway

open Library

variable {W G V : Type}

/-- A parser whose channels do not share state. -/
structure MavlinkParser.PerChannel (parser : MavlinkParser G) (view : Nat → G → V) : Prop where
  own : ∀ chan byte msg status state state', view chan state = view chan state' →
    let r := parser.parseChar chan byte msg status state
    let r' := parser.parseChar chan byte msg status state'
    r.rv = r'.rv ∧ r.msg = r'.msg ∧ r.status = r'.status ∧
      view chan r.state = view chan r'.state
  other : ∀ chan chan' byte msg status state, chan' ≠ chan →
    view chan' (parser.parseChar chan byte msg status state).state = view chan' state

/-- The parts of two push results that do not concern the world or the counters. -/
structure PushResult.SameOutcome (r r' : PushResult W) : Prop where
  msg : r.msg = r'.msg
  inspected : r.inspected = r'.inspected
  calls : r.calls = r'.calls
  discardLog : r.discardLog = r'.discardLog

theorem pipelinePush_source_lt {debug : Bool} {p : Pipeline W} {perf : Perf} {msg : Message}
    {world : W} {r : PushResult W} (h : pipelinePush debug p perf msg world = .ok r) :
    msg.source < maxSources := by
  obtain ⟨routed, hroute, -⟩ := bind_eq_ok_iff.mp h
  unfold routeTableRoute at hroute
  split at hroute
  · assumption
  · cases hroute

theorem pushDiscard_sameOutcome {debug : Bool} {p : Pipeline W} (hroutes : p.RoutesKeepMessage)
    {perf : Perf} {msg : Message} {world : W} {r : PushResult W}
    (h : pushDiscard debug p perf msg world = .ok r) (perf' : Perf) (world' : W) :
    ∃ r', pushDiscard debug p perf' msg world' = .ok r' ∧ r.SameOutcome r' := by
  have hget : sinkGet SinkType.discard.id = .ok ⟨SinkType.discard.id, by decide⟩ := rfl
  unfold pushDiscard at h ⊢
  cases debug with
  | false =>
      cases h
      exact ⟨_, rfl, ⟨rfl, rfl, rfl, rfl⟩⟩
  | true =>
      simp only [if_true, hget, ok_bind] at h ⊢
      cases hroute : (p.sinks ⟨SinkType.discard.id, by decide⟩).route with
      | none =>
          rw [hroute] at h
          cases h
          exact ⟨_, rfl, ⟨rfl, rfl, rfl, rfl⟩⟩
      | some route =>
          rw [hroute] at h
          cases h
          have hkeep := hroutes _ route hroute msg
          exact ⟨_, rfl, ⟨(hkeep world).trans (hkeep world').symm, rfl, rfl, rfl⟩⟩

/-- With read-only routes the outcome of a push depends on neither the world nor
the counters. -/
theorem pipelinePush_sameOutcome {debug : Bool} {p : Pipeline W}
    (hroutes : p.RoutesKeepMessage) {perf : Perf} {msg : Message} {world : W}
    {r : PushResult W} (h : pipelinePush debug p perf msg world = .ok r)
    (perf' : Perf) (world' : W) :
    ∃ r', pipelinePush debug p perf' msg world' = .ok r' ∧ r.SameOutcome r' := by
  have hlt := pipelinePush_source_lt h
  rcases pipelinePush_cases debug p perf world hlt with ⟨hdisc, hcase⟩ | ⟨hdisc, st, hst, hcase⟩
  · rw [hcase] at h
    obtain ⟨r', hr', hsame⟩ := pushDiscard_sameOutcome hroutes h perf' world'
    rcases pipelinePush_cases debug p perf' world' hlt with ⟨-, hcase'⟩ | ⟨hdisc', -⟩
    · exact ⟨r', hcase'.trans hr', hsame⟩
    · rw [hdisc] at hdisc'
      cases hdisc'
  · rw [hcase] at h
    cases h
    rcases pipelinePush_cases debug p perf' world' hlt with ⟨hdisc', -⟩ | ⟨-, st', hst', hcase'⟩
    · rw [hdisc] at hdisc'
      cases hdisc'
    · have hsame := (pushLoop_handOver hroutes hst).trans (pushLoop_handOver hroutes hst').symm
      obtain ⟨hmsg, hcalls⟩ := Prod.mk.inj hsame
      exact ⟨_, hcase', ⟨hmsg, rfl, hcalls, rfl⟩⟩

/-- On pipelines that differ in other sources only, a message is delivered alike. -/
theorem deliver_sameOutcome {debug : Bool} {p p' : Pipeline W} {s : Fin maxSources}
    (hsource : p.sources s = p'.sources s)
    (hshared : { p with sources := p'.sources } = p') (hroutes : p.RoutesKeepMessage)
    {perf : Perf} {cur : Message} {world : W} {d : Delivery} {r : PushResult W}
    (h : deliver debug p s perf cur world = .ok (d, r)) (perf' : Perf) (world' : W) :
    ∃ r', deliver debug p' s perf' cur world' = .ok (d, r') ∧ r.msg = r'.msg := by
  obtain ⟨sources, rfl⟩ : ∃ sources, p' = { p with sources := sources } :=
    ⟨p'.sources, hshared.symm⟩
  obtain ⟨counted, -, hpush, rfl⟩ := deliver_eq_ok_iff.mp h
  obtain ⟨counted', hcounted'⟩ := exists_perfPortUnitUpdate perf' .source
    { cur with source := (sources s).sourceId } s.isLt
  have hstamped : stamped { p with sources := sources } s cur = stamped p s cur := by
    simp only [stamped, hsource]
  obtain ⟨r', hpush', hsame⟩ := pipelinePush_sameOutcome hroutes hpush counted' world'
  refine ⟨r', deliver_eq_ok_iff.mpr ⟨counted', hcounted', ?_, ?_⟩, hsame.msg⟩
  · rw [hstamped]
    exact hpush'
  · rw [hsame.inspected, hsame.calls, hsame.discardLog]

/-- The bytes and deliveries of one source, in order. -/
def turnsOf (s : Fin maxSources) (log : List Turn) : List Turn :=
  log.filter fun t => t.slot = s

/-- The bytes read from one source, in order. -/
def bytesOf (s : Fin maxSources) (log : List Turn) : List UInt8 :=
  (turnsOf s log).map Turn.byte

theorem turnsOf_append_own (s : Fin maxSources) (log : List Turn) (byte : UInt8)
    (delivery : Option Delivery) :
    turnsOf s (log ++ [⟨s, byte, delivery⟩]) = turnsOf s log ++ [⟨s, byte, delivery⟩] := by
  simp [turnsOf]

theorem turnsOf_append_other {s i : Fin maxSources} (h : i ≠ s) (log : List Turn)
    (byte : UInt8) (delivery : Option Delivery) :
    turnsOf s (log ++ [⟨i, byte, delivery⟩]) = turnsOf s log := by
  simp [turnsOf, h]

/-- Two machines that agree on everything that concerns a source. -/
structure Agrees (view : Nat → G → V) (s : Fin maxSources) (m m' : Machine W G) : Prop where
  source : m.pipeline.sources s = m'.pipeline.sources s
  shared : { m.pipeline with sources := m'.pipeline.sources } = m'.pipeline
  view : view s.val m.parser = view s.val m'.parser
  turns : turnsOf s m.log = turnsOf s m'.log

/-- The machine fed the bytes of one source only. -/
def replay (env : Env W G) (s : Fin maxSources) (start : Machine W G) (bytes : List UInt8) :
    Except Fault (Machine W G) :=
  bytes.foldlM (fun m byte => spinByte env s byte m) start

section Simulation

variable {env : Env W G} {view : Nat → G → V} (hparser : env.parser.PerChannel view)
  {s : Fin maxSources} {m m' : Machine W G}

include hparser

/-- On agreeing machines a byte of the source parses alike. -/
theorem Agrees.parse (h : Agrees view s m m') (byte : UInt8) :
    (parseResult env s byte m).rv = (parseResult env s byte m').rv ∧
    parsedRecord env s byte m = parsedRecord env s byte m' ∧
    view s.val (parseResult env s byte m).state = view s.val (parseResult env s byte m').state := by
  have hown := hparser.own s.val byte (m.pipeline.sources s).cur.msg
    (m.pipeline.sources s).cur.status m.parser m'.parser h.view
  simp only [parsedRecord, parseResult, h.source] at hown ⊢
  obtain ⟨hrv, hmsg, hstatus, hview⟩ := hown
  exact ⟨hrv, by rw [hmsg, hstatus], hview⟩

/-- A byte of another source concerns the source in nothing. -/
theorem Agrees.byte_other (h : Agrees view s m m') {i : Fin maxSources} (hne : i ≠ s)
    {byte : UInt8} {n : Machine W G} (hbyte : spinByte env i byte m = .ok n) :
    Agrees view s n m' := by
  have hother := hparser.other i.val s.val byte (m.pipeline.sources i).cur.msg
    (m.pipeline.sources i).cur.status m.parser (fun heq => hne (Fin.ext heq).symm)
  have hsource (cur : Message) :
      (m.pipeline.setCur i cur).sources s = m'.pipeline.sources s :=
    (setCur_sources_of_ne m.pipeline hne.symm cur).trans h.source
  rcases spinByte_cases hbyte with ⟨d, r, -, -, rfl⟩ | ⟨-, rfl⟩
  · exact ⟨hsource _, h.shared, hother.trans h.view,
      (turnsOf_append_other hne m.log byte (some d)).trans h.turns⟩
  · exact ⟨hsource _, h.shared, hother.trans h.view,
      (turnsOf_append_other hne m.log byte none).trans h.turns⟩

/-- A byte of the source does on the replay what it does in the run. -/
theorem Agrees.byte_own (h : Agrees view s m m') (hroutes : m.pipeline.RoutesKeepMessage)
    {byte : UInt8} {n : Machine W G} (hbyte : spinByte env s byte m = .ok n) :
    ∃ n', spinByte env s byte m' = .ok n' ∧ Agrees view s n n' := by
  obtain ⟨hrv, hrecord, hview⟩ := h.parse hparser byte
  have hsources (cur : Message) :
      (m.pipeline.setCur s cur).sources s = (m'.pipeline.setCur s cur).sources s := by
    rw [setCur_sources_self, setCur_sources_self, h.source]
  have hshared (cur : Message) :
      { m.pipeline.setCur s cur with sources := (m'.pipeline.setCur s cur).sources } =
        m'.pipeline.setCur s cur :=
    congrArg (fun p => p.setCur s cur) h.shared
  rcases spinByte_cases hbyte with ⟨d, r, hok, hdeliver, rfl⟩ | ⟨hno, rfl⟩
  · obtain ⟨r', hdeliver', hmsg⟩ :=
      deliver_sameOutcome h.source h.shared hroutes hdeliver m'.perf.perf m'.world
    rw [hrecord] at hdeliver'
    refine ⟨_, spinByte_completed (hrv ▸ hok) hdeliver', ?_⟩
    rw [hmsg]
    exact ⟨hsources _, hshared _, hview, by
      rw [turnsOf_append_own, turnsOf_append_own, h.turns]⟩
  · refine ⟨_, spinByte_fed (hrv ▸ hno), ?_⟩
    rw [← hrecord]
    exact ⟨hsources _, hshared _, hview, by
      rw [turnsOf_append_own, turnsOf_append_own, h.turns]⟩

end Simulation

/-- The run agrees with the replay of the bytes of `s` it has read so far. -/
structure Replayed (env : Env W G) (view : Nat → G → V) (s : Fin maxSources)
    (start : Machine W G) (m : Machine W G) : Prop where
  routes : m.pipeline.RoutesKeepMessage
  replay : ∃ m', replay env s start (bytesOf s m.log) = .ok m' ∧ Agrees view s m m'

theorem replayed_byteInvariant {env : Env W G} {view : Nat → G → V}
    (hparser : env.parser.PerChannel view) (s : Fin maxSources) (start : Machine W G) :
    ByteInvariant env (Replayed env view s start) where
  frame m world perf hasLoad hm := by
    obtain ⟨m', hreplay, h⟩ := hm.replay
    exact ⟨hm.routes, m', hreplay, ⟨h.source, h.shared, h.view, h.turns⟩⟩
  byte m i byte n hm _ hbyte := by
    obtain ⟨m', hreplay, h⟩ := hm.replay
    obtain ⟨cur, hcur⟩ := spinByte_pipeline hbyte
    have hroutes : n.pipeline.RoutesKeepMessage := by
      rw [hcur]
      exact hm.routes
    refine ⟨hroutes, ?_⟩
    by_cases hi : i = s
    · subst i
      obtain ⟨n', hbyte', h'⟩ := h.byte_own hparser hm.routes hbyte
      refine ⟨n', ?_, h'⟩
      have hbytes : bytesOf s n.log = bytesOf s m.log ++ [byte] := by
        rcases spinByte_cases hbyte with ⟨d, r, -, -, rfl⟩ | ⟨-, rfl⟩
        · simp [bytesOf, turnsOf_append_own]
        · simp [bytesOf, turnsOf_append_own]
      rw [hbytes]
      unfold SecureGateway.replay at hreplay ⊢
      rw [List.foldlM_append, hreplay, ok_bind, List.foldlM_cons, hbyte', ok_bind]
      rfl
    · have hbytes : bytesOf s n.log = bytesOf s m.log := by
        rcases spinByte_cases hbyte with ⟨d, r, -, -, rfl⟩ | ⟨-, rfl⟩
        · simp [bytesOf, turnsOf_append_other hi]
        · simp [bytesOf, turnsOf_append_other hi]
      exact ⟨m', by rw [hbytes, hreplay], h.byte_other hparser hi hbyte⟩

/-- Rounds with the flags left alone. -/
def spins (fuels : List Nat) : List Action := fuels.map Action.spin

theorem ByteInvariant.spins {env : Env W G} {Inv : Machine W G → Prop}
    (hinv : ByteInvariant env Inv) {m : Machine W G} (hm : Inv m) (fuels : List Nat) :
    Inv (finalMachine (SecureGateway.runActions env m (SecureGateway.spins fuels))) := by
  unfold SecureGateway.runActions SecureGateway.spins
  rw [List.foldlM_map]
  exact foldlM_finalMachine (fun _ fuel hm => hinv.pipelineSpin fuel hm) fuels hm

/-- Non-interference: in any two runs in which a source delivers the same bytes, the
same becomes of those bytes, whatever the other sources deliver and whenever. -/
theorem noninterference {env : Env W G} {view : Nat → G → V}
    (hparser : env.parser.PerChannel view) {p : Pipeline W} (hroutes : p.RoutesKeepMessage)
    (parser : G) (world₁ world₂ : W) (fuels₁ fuels₂ : List Nat) (s : Fin maxSources) :
    let log₁ := (finalMachine (runActions env (Machine.start p world₁ parser)
      (spins fuels₁))).log
    let log₂ := (finalMachine (runActions env (Machine.start p world₂ parser)
      (spins fuels₂))).log
    bytesOf s log₁ = bytesOf s log₂ → turnsOf s log₁ = turnsOf s log₂ := by
  intro log₁ log₂ hbytes
  let start := Machine.start p world₁ parser
  have hinv := replayed_byteInvariant hparser s start
  have hstart (world : W) : Replayed env view s start (Machine.start p world parser) :=
    ⟨hroutes, start, rfl, ⟨rfl, rfl, rfl, rfl⟩⟩
  obtain ⟨m₁, hreplay₁, hagrees₁⟩ := (hinv.spins (hstart world₁) fuels₁).replay
  obtain ⟨m₂, hreplay₂, hagrees₂⟩ := (hinv.spins (hstart world₂) fuels₂).replay
  have hsame : m₁ = m₂ := by
    have heq := hreplay₁.symm.trans ((congrArg (replay env s start) hbytes).trans hreplay₂)
    exact Except.ok.inj heq
  calc
    turnsOf s log₁ = turnsOf s m₁.log := hagrees₁.turns
    _ = turnsOf s m₂.log := by rw [hsame]
    _ = turnsOf s log₂ := hagrees₂.turns.symm

theorem wireParser_perChannel :
    wireParser.PerChannel fun chan (buffers : Nat → List UInt8) => buffers chan where
  own chan byte msg status buffers buffers' h := by
    simp only [wireParser, h]
    split
    · simp
    · split
      · simp
      · split <;> simp
  other chan chan' byte msg status buffers hne := by
    simp only [wireParser]
    split
    · simp [hne]
    · split
      · simp [hne]
      · split <;> simp [hne]

/-- The heartbeat of the legacy components fares the same beside a heartbeat and
beside stray bytes of the enclave, in one round or in two. -/
theorem noninterference_heartbeat :
    turnsOf ⟨SourceType.legacy.id, by decide⟩
      (finalMachine (runActions relayEnv (Machine.start relay (heartbeatBeside heartbeat)
        fun _ => []) (spins [20]))).log =
    turnsOf ⟨SourceType.legacy.id, by decide⟩
      (finalMachine (runActions relayEnv (Machine.start relay (heartbeatBeside [0xFD, 7])
        fun _ => []) (spins [20, 1]))).log :=
  noninterference (show relayEnv.parser.PerChannel _ from wireParser_perChannel)
    relay_routesKeepMessage (fun _ => []) (heartbeatBeside heartbeat)
    (heartbeatBeside [0xFD, 7]) [20] [20, 1] ⟨SourceType.legacy.id, by decide⟩ (by decide +kernel)

end SecureGateway
