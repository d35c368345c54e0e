import SecureGateway.Push

/-!
# Rounds of the gateway

`pipeline_spin` drains every connected source in turn, feeds the parser of its
channel byte by byte and pushes each completed message. A run is a list of
rounds and flag changes between them.

## Implementation notes

The drain loop has no bound of its own, so it takes a fuel argument; an
execution cut short keeps the machine it had reached, and with it everything
logged so far. The log notes, for every byte read, the message it completed and
what became of that message. It is not read by the code.
-/

namespace SecureGateway

open Library

/-- The build and the environment a gateway runs in. -/
structure Env (W G : Type) where
  debug : Bool
  parser : MavlinkParser G
  timeUs : W → BitVec 64 × W

/-- What became of a completed message. The flags are those it was pushed under;
`parsed` is the source's record when the parser completed the message. -/
structure Delivery where
  parsed : Message
  policyEnabled : Bool
  transformEnabled : Bool
  inspected : Message
  calls : List (Fin maxSinks × Message)
  discardLog : Option Message

/-- One byte read from a source and the message it completed, if any. -/
structure Turn where
  slot : Fin maxSources
  byte : UInt8
  delivery : Option Delivery

/-- The route calls a byte led to. -/
def Turn.calls (t : Turn) : List (Fin maxSinks × Message) :=
  match t.delivery with
  | some d => d.calls
  | none => []

/-- A running gateway; `parser` is the channel state of the MAVLink library. -/
structure Machine (W G : Type) where
  pipeline : Pipeline W
  perf : PerfState
  world : W
  parser : G
  hasLoad : Bool
  log : List Turn

/-- A fault and the machine as it was. -/
structure Halt (W G : Type) where
  fault : Fault
  machine : Machine W G

variable {W G : Type}

/-- Store a source's message record. -/
def Pipeline.setCur (pipeline : Pipeline W) (i : Fin maxSources) (cur : Message) : Pipeline W :=
  { pipeline with
    sources := Function.update pipeline.sources i { pipeline.sources i with cur := cur } }

/-- The branch of `pipeline_spin` for a completed message: the record is stamped
with its source, counted, transformed and pushed. -/
def deliver (debug : Bool) (pipeline : Pipeline W) (i : Fin maxSources) (perf : Perf)
    (cur : Message) (world : W) : Except Fault (Delivery × PushResult W) := do
  let src := pipeline.sources i
  let msg := { cur with source := src.sourceId }
  let perf ← perfPortUnitUpdate perf .source i.val msg
  let msg := applyTransform pipeline.transformEnabled src.transform msg
  let r ← pipelinePush debug pipeline perf msg world
  return ({ parsed := cur
            policyEnabled := pipeline.policyEnabled
            transformEnabled := pipeline.transformEnabled
            inspected := r.inspected
            calls := r.calls
            discardLog := r.discardLog }, r)

/-- `mavlink_parse_char` on the channel and the record of a source. -/
def parseResult (env : Env W G) (i : Fin maxSources) (byte : UInt8) (m : Machine W G) :
    ParseResult G :=
  env.parser.parseChar i.val byte (m.pipeline.sources i).cur.msg
    (m.pipeline.sources i).cur.status m.parser

/-- The record of a source as the parser leaves it. -/
def parsedRecord (env : Env W G) (i : Fin maxSources) (byte : UInt8) (m : Machine W G) :
    Message :=
  { (m.pipeline.sources i).cur with
    msg := (parseResult env i byte m).msg
    status := (parseResult env i byte m).status }

/-- The body of the drain loop once `read_byte` has returned. -/
def spinByte (env : Env W G) (i : Fin maxSources) (byte : UInt8) (m : Machine W G) :
    Except Fault (Machine W G) :=
  if (parseResult env i byte m).rv = .ok then do
    let (d, res) ← deliver env.debug m.pipeline i m.perf.perf (parsedRecord env i byte m) m.world
    return { pipeline := m.pipeline.setCur i res.msg
             perf := { m.perf with perf := res.perf }
             world := res.world
             parser := (parseResult env i byte m).state
             hasLoad := true
             log := m.log ++ [⟨i, byte, some d⟩] }
  else
    return { m with
      pipeline := m.pipeline.setCur i (parsedRecord env i byte m)
      parser := (parseResult env i byte m).state
      hasLoad := true
      log := m.log ++ [⟨i, byte, none⟩] }

/-- `read_byte` returns an `int` that is stored in a `uint8_t`. -/
def byteOfInt (n : Int) : UInt8 := ⟨BitVec.ofInt 8 n⟩

/-- `while (has_more) ...` on one source. -/
def drain (env : Env W G) (i : Fin maxSources) (hasMore readByte : W → Int × W) :
    Nat → Machine W G → Except (Halt W G) (Machine W G)
  | 0, m => .error ⟨.outOfFuel, m⟩
  | fuel + 1, m =>
      let (more, world) := hasMore m.world
      if more = 0 then .ok { m with world := world }
      else
        let (byte, world) := readByte world
        match spinByte env i (byteOfInt byte) { m with world := world } with
        | .ok m' => drain env i hasMore readByte fuel m'
        | .error fault => .error ⟨fault, { m with world := world }⟩

/-- One iteration of the source loop of `pipeline_spin`. -/
def spinSource (env : Env W G) (fuel : Nat) (m : Machine W G) (i : Fin maxSources) :
    Except (Halt W G) (Machine W G) :=
  let src := m.pipeline.sources i
  if !src.isConnected then .ok m
  else
    match src.hasMore, src.readByte with
    | some hasMore, some readByte => drain env i hasMore readByte fuel m
    | _, _ => .error ⟨.assertFailed, m⟩

def pipelineSpin (env : Env W G) (fuel : Nat) (m : Machine W G) :
    Except (Halt W G) (Machine W G) := do
  let (tstart, world) := env.timeUs m.world
  let m ← (List.finRange maxSources).foldlM (spinSource env fuel)
    { m with world := world, hasLoad := false }
  let (tend, world) := env.timeUs m.world
  let perf := perfExecUnitUpdate m.perf.perf (tend - tstart) m.hasLoad
  let (now, world) := env.timeUs world
  return { m with world := world, perf := perfShow now { m.perf with perf := perf } }

/-- A step of a run: a round with its fuel, or a flag changed between rounds. -/
inductive Action
  | spin (fuel : Nat)
  | setPolicyEnabled (enabled : Bool)
  | setTransformEnabled (enabled : Bool)

def Action.apply (env : Env W G) (m : Machine W G) : Action → Except (Halt W G) (Machine W G)
  | spin fuel => pipelineSpin env fuel m
  | setPolicyEnabled enabled =>
      .ok { m with pipeline := { m.pipeline with policyEnabled := enabled } }
  | setTransformEnabled enabled =>
      .ok { m with pipeline := { m.pipeline with transformEnabled := enabled } }

def runActions (env : Env W G) (m : Machine W G) (actions : List Action) :
    Except (Halt W G) (Machine W G) :=
  actions.foldlM (Action.apply env) m

/-- A gateway about to run its first round. -/
def Machine.start (pipeline : Pipeline W) (world : W) (parser : G) : Machine W G where
  pipeline := pipeline
  perf := { perf := perfInit, last := 0, reports := [] }
  world := world
  parser := parser
  hasLoad := false
  log := []

/-- The machine an execution reached, whether or not it was cut short. -/
def finalMachine : Except (Halt W G) (Machine W G) → Machine W G
  | .ok m => m
  | .error halt => halt.machine

@[simp] theorem finalMachine_ok (m : Machine W G) :
    finalMachine (.ok m : Except (Halt W G) (Machine W G)) = m := rfl

@[simp] theorem finalMachine_error (halt : Halt W G) :
    finalMachine (.error halt : Except (Halt W G) (Machine W G)) = halt.machine := rfl

/-! ### What one byte does -/

@[simp] theorem setCur_sources_self (p : Pipeline W) (i : Fin maxSources) (cur : Message) :
    (p.setCur i cur).sources i = { p.sources i with cur := cur } := by
  simp [Pipeline.setCur]

theorem setCur_sources_of_ne (p : Pipeline W) {i j : Fin maxSources} (h : j ≠ i)
    (cur : Message) : (p.setCur i cur).sources j = p.sources j := by
  simp [Pipeline.setCur, h]

/-- The record as `deliver` hands it to `pipeline_push`. -/
def stamped (pipeline : Pipeline W) (i : Fin maxSources) (cur : Message) : Message :=
  applyTransform pipeline.transformEnabled (pipeline.sources i).transform
    { cur with source := (pipeline.sources i).sourceId }

/-- A completed message is pushed; the delivery repeats the outcome. -/
theorem deliver_eq_ok_iff {debug : Bool} {p : Pipeline W} {i : Fin maxSources} {perf : Perf}
    {cur : Message} {world : W} {d : Delivery} {r : PushResult W} :
    deliver debug p i perf cur world = .ok (d, r) ↔
      ∃ perf', perfPortUnitUpdate perf .source i.val
          { cur with source := (p.sources i).sourceId } = .ok perf' ∧
        pipelinePush debug p perf' (stamped p i cur) world = .ok r ∧
        d = { parsed := cur, policyEnabled := p.policyEnabled
              transformEnabled := p.transformEnabled, inspected := r.inspected
              calls := r.calls, discardLog := r.discardLog } := by
  simp only [deliver, bind_eq_ok_iff, pure, Except.pure, Except.ok.injEq, Prod.mk.injEq, stamped]
  constructor
  · rintro ⟨perf', hperf, r', hpush, rfl, rfl⟩
    exact ⟨perf', hperf, hpush, rfl⟩
  · rintro ⟨perf', hperf, hpush, rfl⟩
    exact ⟨perf', hperf, r, hpush, rfl, rfl⟩

/-- A byte that completes a message delivers it. -/
theorem spinByte_completed {env : Env W G} {i : Fin maxSources} {byte : UInt8}
    {m : Machine W G} {d : Delivery} {r : PushResult W}
    (hok : (parseResult env i byte m).rv = .ok)
    (hdeliver : deliver env.debug m.pipeline i m.perf.perf (parsedRecord env i byte m) m.world
      = .ok (d, r)) :
    spinByte env i byte m = .ok
      { pipeline := m.pipeline.setCur i r.msg
        perf := { m.perf with perf := r.perf }
        world := r.world
        parser := (parseResult env i byte m).state
        hasLoad := true
        log := m.log ++ [⟨i, byte, some d⟩] } := by
  rw [spinByte, if_pos hok, hdeliver, ok_bind]
  rfl

/-- Any other byte only feeds the parser. -/
theorem spinByte_fed {env : Env W G} {i : Fin maxSources} {byte : UInt8} {m : Machine W G}
    (hno : (parseResult env i byte m).rv ≠ .ok) :
    spinByte env i byte m = .ok
      { m with
        pipeline := m.pipeline.setCur i (parsedRecord env i byte m)
        parser := (parseResult env i byte m).state
        hasLoad := true
        log := m.log ++ [⟨i, byte, none⟩] } := by
  rw [spinByte, if_neg hno]
  rfl

/-- Everything one byte of a source can do. -/
theorem spinByte_cases {env : Env W G} {i : Fin maxSources} {byte : UInt8} {m m' : Machine W G}
    (h : spinByte env i byte m = .ok m') :
    (∃ d r, (parseResult env i byte m).rv = .ok ∧
      deliver env.debug m.pipeline i m.perf.perf (parsedRecord env i byte m) m.world
        = .ok (d, r) ∧
      m' = { pipeline := m.pipeline.setCur i r.msg
             perf := { m.perf with perf := r.perf }
             world := r.world
             parser := (parseResult env i byte m).state
             hasLoad := true
             log := m.log ++ [⟨i, byte, some d⟩] }) ∨
    ((parseResult env i byte m).rv ≠ .ok ∧
      m' = { m with
             pipeline := m.pipeline.setCur i (parsedRecord env i byte m)
             parser := (parseResult env i byte m).state
             hasLoad := true
             log := m.log ++ [⟨i, byte, none⟩] }) := by
  unfold spinByte at h
  split at h
  · rename_i hok
    obtain ⟨⟨d, r⟩, hdeliver, heq⟩ := bind_eq_ok_iff.mp h
    cases heq
    exact Or.inl ⟨d, r, hok, hdeliver, rfl⟩
  · rename_i hno
    cases h
    exact Or.inr ⟨hno, rfl⟩

/-- Of the pipeline a byte changes only the record of its source. -/
theorem spinByte_pipeline {env : Env W G} {i : Fin maxSources} {byte : UInt8}
    {m m' : Machine W G} (h : spinByte env i byte m = .ok m') :
    ∃ cur, m'.pipeline = m.pipeline.setCur i cur := by
  rcases spinByte_cases h with ⟨d, r, -, -, rfl⟩ | ⟨-, rfl⟩
  · exact ⟨_, rfl⟩
  · exact ⟨_, rfl⟩

theorem setCur_isConnected (p : Pipeline W) (i j : Fin maxSources) (cur : Message) :
    ((p.setCur i cur).sources j).isConnected = (p.sources j).isConnected := by
  by_cases hji : j = i
  · subst j
    simp
  · rw [setCur_sources_of_ne p hji]

/-- Up to the records of its sources and the two flags, a pipeline is the one the
rounds started with. -/
structure Pipeline.SameSetup (start p : Pipeline W) : Prop where
  source : ∀ i, ∃ cur, p.sources i = { start.sources i with cur := cur }
  sinks : p.sinks = start.sinks
  routeTable : p.routeTable = start.routeTable
  policies : p.policies = start.policies

theorem Pipeline.SameSetup.refl (p : Pipeline W) : p.SameSetup p :=
  ⟨fun _ => ⟨_, rfl⟩, rfl, rfl, rfl⟩

theorem Pipeline.SameSetup.setCur {start p : Pipeline W} (h : start.SameSetup p)
    (i : Fin maxSources) (cur : Message) : start.SameSetup (p.setCur i cur) := by
  refine ⟨?_, h.sinks, h.routeTable, h.policies⟩
  intro j
  by_cases hji : j = i
  · subst j
    obtain ⟨old, hold⟩ := h.source i
    exact ⟨cur, by rw [setCur_sources_self, hold]⟩
  · rw [setCur_sources_of_ne p hji]
    exact h.source j

theorem Pipeline.SameSetup.configured {start p : Pipeline W} (h : start.SameSetup p)
    (hstart : start.Configured) : p.Configured := by
  refine ⟨h.routeTable.trans hstart.routeTable, ?_⟩
  intro i hconn
  obtain ⟨cur, hcur⟩ := h.source i
  rw [hcur] at hconn ⊢
  have hready := hstart.ready i hconn
  exact ⟨hready.sourceId, hready.hasMore, hready.readByte⟩

theorem Pipeline.SameSetup.opsKeepRouting {start p : Pipeline W} (h : start.SameSetup p)
    (hops : start.OpsKeepRouting) : p.OpsKeepRouting := by
  refine ⟨?_, ?_, ?_⟩
  · intro i f hf
    obtain ⟨cur, hcur⟩ := h.source i
    rw [hcur] at hf
    exact hops.source i f hf
  · intro k f hf
    rw [h.sinks] at hf
    exact hops.sink k f hf
  · intro k r hr
    rw [h.sinks] at hr
    exact hops.route k r hr

/-- On a configured pipeline whose callbacks keep the routing data, a record of a
connected source is pushed under that source's slot. -/
theorem stamped_source {p : Pipeline W} (hconf : p.Configured) (hops : p.OpsKeepRouting)
    {i : Fin maxSources} (hconn : (p.sources i).isConnected) (cur : Message) :
    (stamped p i cur).source = i.val := by
  have hkeep := applyTransform_keepsRouting p.transformEnabled (hops.source i)
    { cur with source := (p.sources i).sourceId }
  exact hkeep.2.1.trans (hconf.ready i hconn).sourceId

/-- No byte of a connected source faults. -/
theorem exists_spinByte (env : Env W G) {m : Machine W G} {i : Fin maxSources}
    (byte : UInt8) (h : (stamped m.pipeline i (parsedRecord env i byte m)).source < maxSources) :
    ∃ m', spinByte env i byte m = .ok m' := by
  obtain ⟨perf, hperf⟩ := exists_perfPortUnitUpdate m.perf.perf .source
    { parsedRecord env i byte m with source := (m.pipeline.sources i).sourceId } i.isLt
  obtain ⟨r, hpush⟩ := exists_pipelinePush env.debug m.pipeline perf _ m.world h
  have hdeliver := deliver_eq_ok_iff.mpr ⟨perf, hperf, hpush, rfl⟩
  unfold spinByte
  split
  · rw [hdeliver, ok_bind]
    exact ⟨_, rfl⟩
  · exact ⟨_, rfl⟩

/-! ### Rules for whole runs -/

/-- A property of machines that no byte and no bookkeeping breaks. -/
structure ByteInvariant (env : Env W G) (Inv : Machine W G → Prop) : Prop where
  frame : ∀ m world perf hasLoad, Inv m →
    Inv { m with world := world, perf := perf, hasLoad := hasLoad }
  byte : ∀ m i b m', Inv m → (m.pipeline.sources i).isConnected →
    spinByte env i b m = .ok m' → Inv m'

variable {env : Env W G} {Inv : Machine W G → Prop}

/-- A property of machines that no call of a source and no byte breaks. -/
structure PollInvariant (env : Env W G) (Inv : Machine W G → Prop) : Prop where
  hasMore : ∀ m i f, Inv m → (m.pipeline.sources i).hasMore = some f →
    Inv { m with world := (f m.world).2 }
  readByte : ∀ m i f, Inv m → (m.pipeline.sources i).readByte = some f →
    Inv { m with world := (f m.world).2 }
  byte : ∀ m i b m', Inv m → (m.pipeline.sources i).isConnected →
    spinByte env i b m = .ok m' → Inv m'

theorem ByteInvariant.pollInvariant (hinv : ByteInvariant env Inv) : PollInvariant env Inv where
  hasMore m _ _ hm _ := hinv.frame m _ m.perf m.hasLoad hm
  readByte m _ _ hm _ := hinv.frame m _ m.perf m.hasLoad hm
  byte := hinv.byte

theorem PollInvariant.drain (hinv : PollInvariant env Inv) {i : Fin maxSources}
    {hasMore readByte : W → Int × W} (fuel : Nat) {m : Machine W G} (hm : Inv m)
    (hconn : (m.pipeline.sources i).isConnected)
    (hmore : (m.pipeline.sources i).hasMore = some hasMore)
    (hread : (m.pipeline.sources i).readByte = some readByte) :
    Inv (finalMachine (SecureGateway.drain env i hasMore readByte fuel m)) := by
  induction fuel generalizing m with
  | zero => exact hm
  | succ fuel ih =>
      have hpolled := hinv.hasMore m i hasMore hm hmore
      simp only [SecureGateway.drain]
      split
      · exact hpolled
      · have htaken := hinv.readByte _ i readByte hpolled hread
        split
        · rename_i m' hbyte
          obtain ⟨cur, hcur⟩ := spinByte_pipeline hbyte
          have hsource : m'.pipeline.sources i = { m.pipeline.sources i with cur := cur } := by
            rw [hcur, setCur_sources_self]
          refine ih (hinv.byte _ i _ m' htaken hconn hbyte) ?_ ?_ ?_
          · rw [hsource]
            exact hconn
          · rw [hsource]
            exact hmore
          · rw [hsource]
            exact hread
        · exact htaken

theorem PollInvariant.spinSource (hinv : PollInvariant env Inv) (fuel : Nat)
    {m : Machine W G} (i : Fin maxSources) (hm : Inv m) :
    Inv (finalMachine (SecureGateway.spinSource env fuel m i)) := by
  unfold SecureGateway.spinSource
  cases hconn : (m.pipeline.sources i).isConnected with
  | false => simpa [hconn] using hm
  | true =>
      simp only [hconn, Bool.not_true, Bool.false_eq_true, if_false]
      split
      · rename_i hmore hread
        exact hinv.drain fuel hm hconn hmore hread
      · exact hm

/-- A fold of steps that may halt keeps what every step keeps. -/
theorem foldlM_finalMachine {α : Type} {step : Machine W G → α → Except (Halt W G) (Machine W G)}
    (hstep : ∀ m a, Inv m → Inv (finalMachine (step m a))) (xs : List α) {m : Machine W G}
    (hm : Inv m) : Inv (finalMachine (xs.foldlM step m)) := by
  induction xs generalizing m with
  | nil => exact hm
  | cons a xs ih =>
      have hfirst := hstep m a hm
      rw [List.foldlM_cons]
      cases h : step m a with
      | error halt =>
          rw [h] at hfirst
          exact hfirst
      | ok m' =>
          rw [h] at hfirst
          exact ih hfirst

theorem PollInvariant.polled (hinv : PollInvariant env Inv) {fuel : Nat} {m polled : Machine W G}
    (hm : Inv m)
    (h : (List.finRange maxSources).foldlM (SecureGateway.spinSource env fuel) m = .ok polled) :
    Inv polled := by
  have hloop := foldlM_finalMachine (fun _ i hm => hinv.spinSource fuel i hm)
    (List.finRange maxSources) hm
  rw [h] at hloop
  exact hloop

theorem ByteInvariant.pipelineSpin (hinv : ByteInvariant env Inv) (fuel : Nat)
    {m : Machine W G} (hm : Inv m) :
    Inv (finalMachine (SecureGateway.pipelineSpin env fuel m)) := by
  have hloop := foldlM_finalMachine (fun m i hm => hinv.pollInvariant.spinSource fuel i hm)
    (List.finRange maxSources)
    (hinv.frame m (env.timeUs m.world).2 m.perf false hm)
  unfold SecureGateway.pipelineSpin
  cases h : (List.finRange maxSources).foldlM (SecureGateway.spinSource env fuel)
      { m with world := (env.timeUs m.world).2, hasLoad := false } with
  | error halt =>
      rw [h] at hloop
      simp only [h]
      exact hloop
  | ok m' =>
      rw [h] at hloop
      simp only [h]
      exact hinv.frame m' _ _ m'.hasLoad hloop

/-- A property of machines under which no byte and no slot can fault. -/
structure FaultFree (env : Env W G) (Inv : Machine W G → Prop) : Prop
    extends ByteInvariant env Inv where
  ready : ∀ m i, Inv m → (m.pipeline.sources i).isConnected → (m.pipeline.sources i).Ready i
  total : ∀ m i b, Inv m → (m.pipeline.sources i).isConnected →
    ∃ m', spinByte env i b m = .ok m'

/-- An execution that stops short ran out of fuel. -/
def OnlyFuel (r : Except (Halt W G) (Machine W G)) : Prop :=
  ∀ halt, r = .error halt → halt.fault = .outOfFuel

theorem FaultFree.drain (hinv : FaultFree env Inv) (i : Fin maxSources)
    (hasMore readByte : W → Int × W) (fuel : Nat) {m : Machine W G} (hm : Inv m)
    (hconn : (m.pipeline.sources i).isConnected) :
    OnlyFuel (SecureGateway.drain env i hasMore readByte fuel m) := by
  induction fuel generalizing m with
  | zero =>
      intro halt h
      cases h
      rfl
  | succ fuel ih =>
      have hworld (world : W) : Inv { m with world := world } :=
        hinv.frame m world m.perf m.hasLoad hm
      simp only [SecureGateway.drain]
      split
      · intro halt h
        cases h
      · split
        · rename_i m' hbyte
          obtain ⟨cur, hcur⟩ := spinByte_pipeline hbyte
          have hkept := hinv.byte _ i _ m' (hworld (readByte (hasMore m.world).2).2) hconn hbyte
          refine ih hkept ?_
          rw [hcur, setCur_isConnected]
          exact hconn
        · rename_i fault hfault
          obtain ⟨m', hok⟩ := hinv.total _ i
            (byteOfInt (readByte (hasMore m.world).2).1)
            (hworld (readByte (hasMore m.world).2).2) hconn
          rw [hok] at hfault
          cases hfault

theorem FaultFree.spinSource (hinv : FaultFree env Inv) (fuel : Nat)
    {m : Machine W G} (i : Fin maxSources) (hm : Inv m) :
    OnlyFuel (SecureGateway.spinSource env fuel m i) := by
  unfold SecureGateway.spinSource
  cases hconn : (m.pipeline.sources i).isConnected with
  | false =>
      intro halt h
      simp [hconn] at h
  | true =>
      obtain ⟨-, hmore, hread⟩ := hinv.ready m i hm hconn
      obtain ⟨hasMore, hmore⟩ := Option.isSome_iff_exists.mp hmore
      obtain ⟨readByte, hread⟩ := Option.isSome_iff_exists.mp hread
      simp only [hconn, hmore, hread, Bool.not_true, Bool.false_eq_true, if_false]
      exact hinv.drain i hasMore readByte fuel hm hconn

theorem foldlM_onlyFuel {α : Type} {step : Machine W G → α → Except (Halt W G) (Machine W G)}
    (hstep : ∀ m a, Inv m → Inv (finalMachine (step m a)))
    (honly : ∀ m a, Inv m → OnlyFuel (step m a)) (xs : List α) {m : Machine W G}
    (hm : Inv m) : OnlyFuel (xs.foldlM step m) := by
  induction xs generalizing m with
  | nil =>
      intro halt h
      cases h
  | cons a xs ih =>
      have hfirst := hstep m a hm
      have hfault := honly m a hm
      rw [List.foldlM_cons]
      cases h : step m a with
      | error halt =>
          rw [h] at hfault
          exact hfault
      | ok m' =>
          rw [h] at hfirst
          exact ih hfirst

theorem FaultFree.pipelineSpin (hinv : FaultFree env Inv) (fuel : Nat)
    {m : Machine W G} (hm : Inv m) :
    OnlyFuel (SecureGateway.pipelineSpin env fuel m) := by
  have hloop := foldlM_onlyFuel (fun m i hm => hinv.pollInvariant.spinSource fuel i hm)
    (fun m i hm => hinv.spinSource fuel i hm) (List.finRange maxSources)
    (hinv.frame m (env.timeUs m.world).2 m.perf false hm)
  unfold SecureGateway.pipelineSpin
  cases h : (List.finRange maxSources).foldlM (SecureGateway.spinSource env fuel)
      { m with world := (env.timeUs m.world).2, hasLoad := false } with
  | error halt =>
      rw [h] at hloop
      simp only [h]
      exact hloop
  | ok m' =>
      simp only [h]
      intro halt hhalt
      cases hhalt

/-- A property that no change of the two flags between rounds breaks. -/
def FlagInvariant (Inv : Machine W G → Prop) : Prop :=
  ∀ m policyEnabled transformEnabled, Inv m →
    Inv { m with pipeline := { m.pipeline with
      policyEnabled := policyEnabled, transformEnabled := transformEnabled } }

theorem ByteInvariant.actionApply (hinv : ByteInvariant env Inv) (hflags : FlagInvariant Inv)
    {m : Machine W G} (action : Action) (hm : Inv m) :
    Inv (finalMachine (Action.apply env m action)) := by
  cases action with
  | spin fuel => exact hinv.pipelineSpin fuel hm
  | setPolicyEnabled enabled => exact hflags m enabled m.pipeline.transformEnabled hm
  | setTransformEnabled enabled => exact hflags m m.pipeline.policyEnabled enabled hm

/-- The rule of invariants for runs. -/
theorem ByteInvariant.runActions (hinv : ByteInvariant env Inv) (hflags : FlagInvariant Inv)
    {m : Machine W G} (hm : Inv m) (actions : List Action) :
    Inv (finalMachine (SecureGateway.runActions env m actions)) :=
  foldlM_finalMachine (fun _ action hm => hinv.actionApply hflags action hm) actions hm

/-- A run without faults goes on for as long as its rounds have fuel. -/
theorem FaultFree.runActions (hinv : FaultFree env Inv) (hflags : FlagInvariant Inv)
    {m : Machine W G} (hm : Inv m) (actions : List Action) :
    OnlyFuel (SecureGateway.runActions env m actions) := by
  refine foldlM_onlyFuel
    (fun _ action hm => hinv.toByteInvariant.actionApply hflags action hm) ?_ actions hm
  intro m action hm
  cases action with
  | spin fuel => exact hinv.pipelineSpin fuel hm
  | setPolicyEnabled enabled =>
      intro halt h
      cases h
  | setTransformEnabled enabled =>
      intro halt h
      cases h

end SecureGateway
