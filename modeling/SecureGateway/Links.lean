import SecureGateway.Mediation
import SecureGateway.Reinit

/-!
# The gateway between its links

A link is a connection object as the callbacks of its source and its sink see it. A
gateway over links keeps a ledger: what a link has given away and what it was handed
are the bytes and the route calls in the log, and what these are due to be is settled
by mediation.

## Implementation notes

Whatever the other side of a link and its reader threads do is part of the link: a
link holds what it will meet. A link hooked at two slots is one object, so its ledger
has the bytes of both. The log of discarded messages of a `DEBUG` build is a route
call like any other.
-/

namespace SecureGateway

open Library

section Runs

variable {W G : Type}

/-- A property of machines that the clock, a poll without a byte, and a byte that is
polled, read and parsed keep; a byte in hand is never part of the machine. -/
structure ReadInvariant (env : Env W G) (Inv : Machine W G → Prop) : Prop where
  ready : ∀ m i, Inv m → (m.pipeline.sources i).isConnected → (m.pipeline.sources i).Ready i
  clock : ∀ m perf hasLoad, Inv m →
    Inv { m with world := (env.timeUs m.world).2, perf := perf, hasLoad := hasLoad }
  silent : ∀ m i f, Inv m → (m.pipeline.sources i).isConnected →
    (m.pipeline.sources i).hasMore = some f → (f m.world).1 = 0 →
    Inv { m with world := (f m.world).2 }
  read : ∀ m i f g, Inv m → (m.pipeline.sources i).isConnected →
    (m.pipeline.sources i).hasMore = some f → (m.pipeline.sources i).readByte = some g →
    (f m.world).1 ≠ 0 →
    ∃ m', spinByte env i (byteOfInt (g (f m.world).2).1)
      { m with world := (g (f m.world).2).2 } = .ok m' ∧ Inv m'

/-- An execution that kept a property and stopped short for want of fuel at most. -/
structure Keeps (Inv : Machine W G → Prop) (r : Except (Halt W G) (Machine W G)) : Prop where
  inv : Inv (finalMachine r)
  fuel : OnlyFuel r

theorem Keeps.ok {Inv : Machine W G → Prop} {m : Machine W G} (hm : Inv m) :
    Keeps Inv (.ok m) := by
  refine ⟨hm, ?_⟩
  intro halt h
  cases h

variable {env : Env W G} {Inv : Machine W G → Prop}

theorem ReadInvariant.drain (hinv : ReadInvariant env Inv) {i : Fin maxSources}
    {hasMore readByte : W → Int × W} (fuel : Nat) {m : Machine W G} (hm : Inv m)
    (hconn : (m.pipeline.sources i).isConnected)
    (hmore : (m.pipeline.sources i).hasMore = some hasMore)
    (hread : (m.pipeline.sources i).readByte = some readByte) :
    Keeps Inv (SecureGateway.drain env i hasMore readByte fuel m) := by
  induction fuel generalizing m with
  | zero =>
      refine ⟨hm, ?_⟩
      intro halt h
      cases h
      rfl
  | succ fuel ih =>
      simp only [SecureGateway.drain]
      split
      · rename_i hnone
        exact .ok (hinv.silent m i hasMore hm hconn hmore hnone)
      · rename_i hsome
        obtain ⟨m', hbyte, hm'⟩ := hinv.read m i hasMore readByte hm hconn hmore hread hsome
        rw [hbyte]
        obtain ⟨cur, hcur⟩ := spinByte_pipeline hbyte
        have hsource : m'.pipeline.sources i = { m.pipeline.sources i with cur := cur } := by
          rw [hcur, setCur_sources_self]
        apply ih hm'
        · rw [hsource]
          exact hconn
        · rw [hsource]
          exact hmore
        · rw [hsource]
          exact hread

theorem ReadInvariant.spinSource (hinv : ReadInvariant env Inv) (fuel : Nat)
    {m : Machine W G} (i : Fin maxSources) (hm : Inv m) :
    Keeps Inv (SecureGateway.spinSource env fuel m i) := by
  unfold SecureGateway.spinSource
  cases hconn : (m.pipeline.sources i).isConnected with
  | false =>
      simp only [hconn, Bool.not_false, if_true]
      exact .ok hm
  | true =>
      obtain ⟨-, hmore, hread⟩ := hinv.ready m i hm hconn
      obtain ⟨hasMore, hmore⟩ := Option.isSome_iff_exists.mp hmore
      obtain ⟨readByte, hread⟩ := Option.isSome_iff_exists.mp hread
      simp only [hconn, hmore, hread, Bool.not_true, Bool.false_eq_true, if_false]
      exact hinv.drain fuel hm hconn hmore hread

theorem ReadInvariant.pipelineSpin (hinv : ReadInvariant env Inv) (fuel : Nat)
    {m : Machine W G} (hm : Inv m) : Keeps Inv (SecureGateway.pipelineSpin env fuel m) := by
  have hstart := hinv.clock m m.perf false hm
  have hinvs (m : Machine W G) (i : Fin maxSources) (hm : Inv m) :
      Inv (finalMachine (SecureGateway.spinSource env fuel m i)) :=
    (hinv.spinSource fuel i hm).inv
  have hloop := foldlM_finalMachine hinvs (List.finRange maxSources) hstart
  have hfuel := foldlM_onlyFuel hinvs (fun m i hm => (hinv.spinSource fuel i hm).fuel)
    (List.finRange maxSources) hstart
  unfold SecureGateway.pipelineSpin
  cases h : (List.finRange maxSources).foldlM (SecureGateway.spinSource env fuel)
      { m with world := (env.timeUs m.world).2, hasLoad := false } with
  | error halt =>
      rw [h] at hloop hfuel
      simp only [h]
      exact ⟨hloop, hfuel⟩
  | ok m' =>
      rw [h] at hloop
      simp only [h]
      exact .ok (hinv.clock _ _ _ (hinv.clock m' m'.perf m'.hasLoad hloop))

/-- The rule for runs whose polls and reads go together. -/
theorem ReadInvariant.runActions (hinv : ReadInvariant env Inv) (hflags : FlagInvariant Inv)
    {m : Machine W G} (hm : Inv m) (actions : List Action) :
    Keeps Inv (SecureGateway.runActions env m actions) := by
  have hstep (m : Machine W G) (action : Action) (hm : Inv m) :
      Keeps Inv (Action.apply env m action) := by
    cases action with
    | spin fuel => exact hinv.pipelineSpin fuel hm
    | setPolicyEnabled enabled => exact .ok (hflags m enabled m.pipeline.transformEnabled hm)
    | setTransformEnabled enabled => exact .ok (hflags m m.pipeline.policyEnabled enabled hm)
  exact ⟨foldlM_finalMachine (fun m action hm => (hstep m action hm).inv) actions hm,
    foldlM_onlyFuel (fun m action hm => (hstep m action hm).inv)
      (fun m action hm => (hstep m action hm).fuel) actions hm⟩

/-! ### What a push does to the world -/

theorem discard_lt_maxSinks : SinkType.discard.id < maxSinks := by decide

/-- All route calls of a push, the discard log included. -/
def PushResult.routed (r : PushResult W) : List (Fin maxSinks × Message) :=
  r.calls ++ r.discardLog.toList.map fun msg => (⟨SinkType.discard.id, discard_lt_maxSinks⟩, msg)

/-- A property of the world and the route calls made so far that a route call keeps. -/
def Pipeline.SinksTrack (pipeline : Pipeline W)
    (Q : W → List (Fin maxSinks × Message) → Prop) : Prop :=
  ∀ k r, (pipeline.sinks k).route = some r → ∀ msg world calls, Q world calls →
    Q (r msg world).2 (calls ++ [(k, msg)])

variable {p : Pipeline W} {Q : W → List (Fin maxSinks × Message) → Prop}

theorem pushLoop_tracks (htrack : p.SinksTrack Q) {ks : List (Fin maxSinks)}
    {st st' : PushState W} (hst : Q st.world st.calls)
    (h : ks.foldlM (pushSink p) st = .ok st') : Q st'.world st'.calls := by
  induction ks generalizing st with
  | nil =>
      cases h
      exact hst
  | cons k ks ih =>
      rw [List.foldlM_cons] at h
      rcases pushSink_cases p st k with ⟨-, hstep⟩ | ⟨route, perf, -, hroute, hstep⟩
      · rw [hstep, ok_bind] at h
        exact ih hst h
      · rw [hstep, ok_bind] at h
        exact ih (htrack k route hroute _ _ _ hst) h

theorem pushDiscard_tracks (htrack : p.SinksTrack Q) {debug : Bool} {perf : Perf}
    {msg : Message} {world : W} {r : PushResult W} (hworld : Q world [])
    (h : pushDiscard debug p perf msg world = .ok r) : Q r.world r.routed := by
  have hget : sinkGet SinkType.discard.id = .ok ⟨SinkType.discard.id, by decide⟩ := rfl
  unfold pushDiscard at h
  cases debug with
  | false =>
      cases h
      exact hworld
  | true =>
      rw [if_pos rfl, hget, ok_bind] at h
      cases hroute : (p.sinks ⟨SinkType.discard.id, by decide⟩).route with
      | none =>
          rw [hroute] at h
          cases h
          exact hworld
      | some route =>
          rw [hroute] at h
          cases h
          exact htrack _ route hroute msg world [] hworld

/-- A push leaves the world as its route calls leave it. -/
theorem pipelinePush_tracks (htrack : p.SinksTrack Q) {debug : Bool} {perf : Perf}
    {msg : Message} {world : W} {r : PushResult W} (hworld : Q world [])
    (h : pipelinePush debug p perf msg world = .ok r) : Q r.world r.routed := by
  obtain ⟨routed, -, h⟩ := bind_eq_ok_iff.mp h
  dsimp only at h
  split at h
  · exact pushDiscard_tracks htrack hworld h
  · obtain ⟨st, hloop, h⟩ := bind_eq_ok_iff.mp h
    cases h
    simpa [PushResult.routed] using pushLoop_tracks htrack hworld hloop

/-- A byte leaves the world as its route calls leave it. -/
theorem spinByte_tracks {i : Fin maxSources} {byte : UInt8} {m m' : Machine W G}
    (htrack : m.pipeline.SinksTrack Q) (hworld : Q m.world [])
    (h : spinByte env i byte m = .ok m') :
    ∃ t, m'.log = m.log ++ [t] ∧ t.slot = i ∧ t.byte = byte ∧ Q m'.world t.routed := by
  rcases spinByte_cases h with ⟨d, r, -, hdeliver, rfl⟩ | ⟨-, rfl⟩
  · obtain ⟨perf, -, hpush, rfl⟩ := deliver_eq_ok_iff.mp hdeliver
    exact ⟨_, rfl, rfl, rfl, pipelinePush_tracks htrack hworld hpush⟩
  · exact ⟨_, rfl, rfl, rfl, hworld⟩

end Runs

/-! ### Links -/

/-- The operations on a connection object of type `A`. A route operation reads the
MAVLink message; what it returns is not looked at. -/
structure LinkOps (A : Type) where
  hasMore : A → Int × A
  readByte : A → Int × A
  route : MavlinkMessage → A → A

/-- The links of a gateway, and everything else its callbacks may change. -/
structure Links {ι : Type} (A : ι → Type) (T : Type) where
  link : ∀ l, A l
  rest : T

variable {ι : Type} [DecidableEq ι] {A : ι → Type} {T G : Type}

def Links.put (w : Links A T) (l : ι) (a : A l) : Links A T :=
  { w with link := Function.update w.link l a }

@[simp] theorem Links.put_self (w : Links A T) (l : ι) (a : A l) : (w.put l a).link l = a := by
  simp [Links.put]

@[simp] theorem Links.put_other (w : Links A T) {l l' : ι} (a : A l) (h : l' ≠ l) :
    (w.put l a).link l' = w.link l' := by
  simp [Links.put, h]

/-- The callbacks of one of the links. -/
def hookOps (ops : ∀ l, LinkOps (A l)) (l : ι) : HookOps (Links A T) where
  hasMore w := (((ops l).hasMore (w.link l)).1, w.put l ((ops l).hasMore (w.link l)).2)
  readByte w := (((ops l).readByte (w.link l)).1, w.put l ((ops l).readByte (w.link l)).2)
  route msg w := (msg, w.put l ((ops l).route msg.msg (w.link l)))

/-- A registration that hooks links; a stdio sink only prints. -/
inductive LinkSetup (ι T : Type)
  | hook (sourceId sinkType : Nat) (l : ι)
  | hookStdioSink (sinkType : Nat) (print : Message → T → T)
  | addTransformer (type : PortType) (id : Nat) (transform : Message → Message)
  | policyRegister (policy : SecurityPolicy)

def LinkSetup.op (ops : ∀ l, LinkOps (A l)) : LinkSetup ι T → SetupOp (Links A T)
  | hook sourceId sinkType l => .hook sourceId sinkType (hookOps ops l)
  | hookStdioSink sinkType print =>
      .hookStdioSink sinkType fun msg w => (msg, { w with rest := print msg w.rest })
  | addTransformer type id transform => .addTransformer type id transform
  | policyRegister policy => .policyRegister policy

/-- The link behind each slot. -/
structure Wiring (ι : Type) where
  source : Fin maxSources → Option ι
  sink : Fin maxSinks → Option ι

/-- What a registration wires. -/
def LinkSetup.wire (w : Wiring ι) : LinkSetup ι T → Wiring ι
  | hook sourceId sinkType l =>
      { source := fun i => if i.val = sourceId then some l else w.source i
        sink := fun k => if k.val = sinkType then some l else w.sink k }
  | hookStdioSink sinkType _ =>
      { w with sink := fun k => if k.val = sinkType then none else w.sink k }
  | _ => w

/-- The link each slot belongs to: the one hooked there last. -/
def wiring (setup : List (LinkSetup ι T)) : Wiring ι :=
  setup.foldl LinkSetup.wire ⟨fun _ => none, fun _ => none⟩

/-- The callbacks of every slot are those of the link behind it. -/
structure Wired (ops : ∀ l, LinkOps (A l)) (w : Wiring ι) (p : Pipeline (Links A T)) : Prop where
  source : ∀ i, (p.sources i).isConnected → ∃ l, w.source i = some l ∧
    (p.sources i).hasMore = some (hookOps ops l).hasMore ∧
    (p.sources i).readByte = some (hookOps ops l).readByte
  sink : ∀ k route, (p.sinks k).route = some route →
    (∃ l, w.sink k = some l ∧ route = (hookOps ops l).route) ∨
    w.sink k = none ∧ ∃ print : Message → T → T,
      route = fun msg w => (msg, { w with rest := print msg w.rest })

theorem sinkAllocate_ok {W : Type} {sinks sinks' : Fin maxSinks → Sink W} {type : Nat}
    {k : Fin maxSinks} (h : sinkAllocate sinks type = .ok (k, sinks')) :
    k.val = type ∧ sinks' = Function.update sinks k
      { route := none, transform := none, isConnected := true } := by
  unfold sinkAllocate at h
  split at h
  · cases h
    exact ⟨rfl, rfl⟩
  · cases h

theorem sinkGet_ok {type : Nat} {k : Fin maxSinks} (h : sinkGet type = .ok k) :
    k.val = type := by
  unfold sinkGet at h
  split at h
  · cases h
    rfl
  · cases h

theorem hook_wired {ops : ∀ l, LinkOps (A l)} {w : Wiring ι} {p q : Pipeline (Links A T)}
    {sourceId sinkType : Nat} {l : ι} (hp : Wired ops w p)
    (h : hook p sourceId sinkType (hookOps ops l) = .ok q) :
    Wired ops ((LinkSetup.hook (T := T) sourceId sinkType l).wire w) q := by
  obtain ⟨⟨i, sources⟩, halloc, h⟩ := bind_eq_ok_iff.mp h
  obtain ⟨⟨k, sinks⟩, hsinks, h⟩ := bind_eq_ok_iff.mp h
  obtain ⟨hi, rfl⟩ := sourceAllocate_eq_ok_iff.mp halloc
  obtain ⟨hk, rfl⟩ := sinkAllocate_ok hsinks
  cases h
  constructor
  · intro j hconn
    by_cases hj : j = i
    · subst j
      exact ⟨l, by simp [LinkSetup.wire, hi], by simp, by simp⟩
    · simp only [Function.update_of_ne hj] at hconn ⊢
      have hne : j.val ≠ sourceId := fun heq => hj (Fin.ext (heq.trans hi.symm))
      simpa only [LinkSetup.wire, if_neg hne] using hp.source j hconn
  · intro j route hroute
    by_cases hj : j = k
    · subst j
      left
      simp only [Function.update_self, Option.some.injEq] at hroute
      exact ⟨l, by simp [LinkSetup.wire, hk], hroute.symm⟩
    · simp only [Function.update_of_ne hj] at hroute
      have hne : j.val ≠ sinkType := fun heq => hj (Fin.ext (heq.trans hk.symm))
      simpa only [LinkSetup.wire, if_neg hne] using hp.sink j route hroute

theorem hookStdioSink_wired {ops : ∀ l, LinkOps (A l)} {w : Wiring ι}
    {p q : Pipeline (Links A T)} {sinkType : Nat} {print : Message → T → T}
    (hp : Wired ops w p)
    (h : hookStdioSink p sinkType
      (fun msg w => (msg, { w with rest := print msg w.rest })) = .ok q) :
    Wired ops ((LinkSetup.hookStdioSink sinkType print).wire w) q := by
  obtain ⟨k, hget, h⟩ := bind_eq_ok_iff.mp h
  have hk := sinkGet_ok hget
  cases h
  refine ⟨hp.source, ?_⟩
  intro j route hroute
  by_cases hj : j = k
  · subst j
    right
    simp only [Function.update_self, Option.some.injEq] at hroute
    exact ⟨by simp [LinkSetup.wire, hk], print, hroute.symm⟩
  · simp only [Function.update_of_ne hj] at hroute
    have hne : j.val ≠ sinkType := fun heq => hj (Fin.ext (heq.trans hk.symm))
    simpa only [LinkSetup.wire, if_neg hne] using hp.sink j route hroute

/-- A transformer is none of the callbacks a link has. -/
theorem addTransformer_wired {ops : ∀ l, LinkOps (A l)} {w : Wiring ι}
    {p q : Pipeline (Links A T)} {type : PortType} {id : Nat} {transform : Message → Message}
    (hp : Wired ops w p) (h : addTransformer p type id transform = .ok q) : Wired ops w q := by
  cases type with
  | source =>
      simp only [addTransformer] at h
      split at h
      · split at h
        · rename_i hlt
          cases h
          refine ⟨?_, hp.sink⟩
          intro j hconn
          by_cases hj : j = ⟨id, hlt⟩
          · subst j
            simp only [Function.update_self] at hconn ⊢
            exact hp.source ⟨id, hlt⟩ hconn
          · simp only [Function.update_of_ne hj] at hconn ⊢
            exact hp.source j hconn
        · cases h
      · cases h
  | sink =>
      simp only [addTransformer] at h
      split at h
      · obtain ⟨k, -, h⟩ := bind_eq_ok_iff.mp h
        cases h
        refine ⟨hp.source, ?_⟩
        intro j route hroute
        by_cases hj : j = k
        · subst j
          simp only [Function.update_self] at hroute
          exact hp.sink k route hroute
        · simp only [Function.update_of_ne hj] at hroute
          exact hp.sink j route hroute
      · cases h

theorem LinkSetup.apply_wired {ops : ∀ l, LinkOps (A l)} {w : Wiring ι}
    {p q : Pipeline (Links A T)} {op : LinkSetup ι T} (hp : Wired ops w p)
    (h : (op.op ops).apply p = .ok q) : Wired ops (op.wire w) q := by
  cases op with
  | hook sourceId sinkType l => exact hook_wired hp h
  | hookStdioSink sinkType print => exact hookStdioSink_wired hp h
  | addTransformer type id transform => exact addTransformer_wired hp h
  | policyRegister policy =>
      obtain ⟨policies, -, h⟩ := bind_eq_ok_iff.mp h
      cases h
      exact ⟨hp.source, hp.sink⟩

/-- Registrations wire every slot to the link hooked there last. -/
theorem configure_wired {ops : ∀ l, LinkOps (A l)} {initial p : Pipeline (Links A T)}
    {setup : List (LinkSetup ι T)} {w : Wiring ι} (hinitial : Wired ops w initial)
    (h : configure initial (setup.map (LinkSetup.op ops)) = .ok p) :
    Wired ops (setup.foldl LinkSetup.wire w) p := by
  induction setup generalizing initial w with
  | nil =>
      cases h
      exact hinitial
  | cons op setup ih =>
      unfold configure at h
      rw [List.map_cons, List.foldlM_cons] at h
      obtain ⟨q, hop, hrest⟩ := bind_eq_ok_iff.mp h
      exact ih (LinkSetup.apply_wired hinitial hop) hrest

theorem pipelineInit_wired {ops : ∀ l, LinkOps (A l)}
    {securityPolicyInit : SecurityPolicyMgmt → Except Fault SecurityPolicyMgmt}
    {prior p : Pipeline (Links A T)} (h : pipelineInit securityPolicyInit prior = .ok p) :
    Wired ops ⟨fun _ => none, fun _ => none⟩ p := by
  obtain ⟨policies, -, rfl⟩ := pipelineInit_eq_ok_iff.mp h
  refine ⟨?_, ?_⟩
  · intro i hconn
    cases hconn
  · intro k route hroute
    cases hroute

/-- A wired pipeline stays wired in the rounds. -/
theorem Wired.sameSetup {ops : ∀ l, LinkOps (A l)} {w : Wiring ι} {start p : Pipeline (Links A T)}
    (hw : Wired ops w start) (h : start.SameSetup p) : Wired ops w p := by
  refine ⟨?_, ?_⟩
  · intro i hconn
    obtain ⟨cur, hcur⟩ := h.source i
    rw [hcur] at hconn ⊢
    exact hw.source i hconn
  · intro k route hroute
    rw [h.sinks] at hroute
    exact hw.sink k route hroute

/-- The route operations of links and stdio sinks only read the message. -/
theorem Wired.routesKeepMessage {ops : ∀ l, LinkOps (A l)} {w : Wiring ι}
    {p : Pipeline (Links A T)} (hw : Wired ops w p) : p.RoutesKeepMessage := by
  intro k route hroute msg world
  rcases hw.sink k route hroute with ⟨l, -, rfl⟩ | ⟨-, print, rfl⟩
  · rfl
  · rfl

/-! ### The ledger -/

/-- The bytes of the log that were read from a link. -/
def readFrom (w : Wiring ι) (l : ι) (log : List Turn) : List UInt8 :=
  (log.filter fun t => w.source t.slot = some l).map Turn.byte

/-- The messages of some route calls that a link was handed. -/
def Wiring.messages (w : Wiring ι) (l : ι) (calls : List (Fin maxSinks × Message)) :
    List MavlinkMessage :=
  (calls.filter fun c => w.sink c.1 = some l).map fun c => c.2.msg

/-- The messages of the log that a link was handed. -/
def handedTo (w : Wiring ι) (l : ι) (log : List Turn) : List MavlinkMessage :=
  w.messages l (log.flatMap Turn.routed)

theorem readFrom_append (w : Wiring ι) (l : ι) (log : List Turn) (t : Turn) :
    readFrom w l (log ++ [t]) =
      readFrom w l log ++ if w.source t.slot = some l then [t.byte] else [] := by
  by_cases h : w.source t.slot = some l <;> simp [readFrom, h]

theorem messages_append (w : Wiring ι) (l : ι) (calls more : List (Fin maxSinks × Message)) :
    w.messages l (calls ++ more) = w.messages l calls ++ w.messages l more := by
  simp [Wiring.messages]

theorem handedTo_append (w : Wiring ι) (l : ι) (log : List Turn) (t : Turn) :
    handedTo w l (log ++ [t]) = handedTo w l log ++ w.messages l t.routed := by
  simp [handedTo, messages_append]

/-- What the calls on a link do, as far as an invariant over what it has given away and
what it was handed says it. A byte is read right after a poll that announced it. -/
structure LinkOps.Lawful {B : Type} (ops : LinkOps B)
    (Inv : B → List UInt8 → List MavlinkMessage → Prop) : Prop where
  silent : ∀ a bytes msgs, Inv a bytes msgs → (ops.hasMore a).1 = 0 →
    Inv (ops.hasMore a).2 bytes msgs
  read : ∀ a bytes msgs, Inv a bytes msgs → (ops.hasMore a).1 ≠ 0 →
    let r := ops.readByte (ops.hasMore a).2
    Inv r.2 (bytes ++ [byteOfInt r.1]) msgs
  route : ∀ a bytes msgs msg, Inv a bytes msgs → Inv (ops.route msg a) bytes (msgs ++ [msg])

/-- The route operations of a wired pipeline keep what the ledger says of the links. -/
theorem Wired.sinksTrack {ops : ∀ l, LinkOps (A l)}
    {Inv : ∀ l, A l → List UInt8 → List MavlinkMessage → Prop}
    (hroutes : ∀ l a bytes msgs msg, Inv l a bytes msgs →
      Inv l ((ops l).route msg a) bytes (msgs ++ [msg]))
    {w : Wiring ι} {p : Pipeline (Links A T)}
    (hw : Wired ops w p) (bytes : ι → List UInt8) (msgs : ι → List MavlinkMessage) :
    p.SinksTrack fun world calls =>
      ∀ l, Inv l (world.link l) (bytes l) (msgs l ++ w.messages l calls) := by
  intro k route hroute msg world calls hcalls l'
  rw [messages_append, ← List.append_assoc]
  have hsame (hne : w.sink k ≠ some l') : w.messages l' [(k, msg)] = [] := by
    simp [Wiring.messages, hne]
  rcases hw.sink k route hroute with ⟨l, hl, rfl⟩ | ⟨hnone, print, rfl⟩
  · by_cases hll : l' = l
    · subst l'
      have hone : w.messages l [(k, msg)] = [msg.msg] := by simp [Wiring.messages, hl]
      rw [hone, hookOps, Links.put_self]
      exact hroutes l _ _ _ _ (hcalls l)
    · rw [hsame (by simp [hl, Ne.symm hll]), List.append_nil, hookOps, Links.put_other _ _ hll]
      exact hcalls l'
  · rw [hsame (by simp [hnone]), List.append_nil]
    exact hcalls l'

/-- A mediated run whose log agrees with every link. -/
structure Ledger (w : Wiring ι) (Inv : ∀ l, A l → List UInt8 → List MavlinkMessage → Prop)
    (start : Pipeline (Links A T)) (m : Machine (Links A T) G) : Prop
    extends Mediated start m where
  links : ∀ l, Inv l (m.world.link l) (readFrom w l m.log) (handedTo w l m.log)

/-- The rounds keep the ledger, whatever the clock and as long as it leaves the links alone. -/
theorem ledger_readInvariant {ops : ∀ l, LinkOps (A l)}
    {Inv : ∀ l, A l → List UInt8 → List MavlinkMessage → Prop}
    (hlawful : ∀ l, (ops l).Lawful (Inv l)) {w : Wiring ι} {start : Pipeline (Links A T)}
    (hw : Wired ops w start) (hconf : start.Configured) (hops : start.OpsKeepRouting)
    (hverdict : ∀ policy ∈ start.policies.policies, policy.VerdictIgnoresAttr)
    {env : Env (Links A T) G} (hclock : ∀ world, (env.timeUs world).2.link = world.link) :
    ReadInvariant env (Ledger w Inv start) where
  ready m i hm hconn := (hm.setup.configured hconf).ready i hconn
  clock m perf hasLoad hm := by
    refine ⟨⟨hm.setup, hm.log⟩, ?_⟩
    intro l
    rw [hclock]
    exact hm.links l
  silent m i f hm hconn hmore hnone := by
    refine ⟨⟨hm.setup, hm.log⟩, ?_⟩
    intro l'
    obtain ⟨l, -, hf, -⟩ := (hw.sameSetup hm.setup).source i hconn
    obtain rfl := Option.some.inj (hmore.symm.trans hf)
    by_cases hll : l' = l
    · subst l'
      rw [hookOps, Links.put_self]
      exact (hlawful l).silent _ _ _ (hm.links l) hnone
    · rw [hookOps, Links.put_other _ _ hll]
      exact hm.links l'
  read m i f g hm hconn hmore hread hsome := by
    obtain ⟨l, hl, hf, hg⟩ := (hw.sameSetup hm.setup).source i hconn
    obtain rfl := Option.some.inj (hmore.symm.trans hf)
    obtain rfl := Option.some.inj (hread.symm.trans hg)
    generalize hbyte : byteOfInt ((hookOps ops l).readByte
      ((hookOps ops l).hasMore m.world).2).1 = byte
    generalize hworld : ((hookOps ops l).readByte ((hookOps ops l).hasMore m.world).2).2 = world
    have htaken (l' : ι) : Inv l' (world.link l')
        (readFrom w l' m.log ++ if w.source i = some l' then [byte] else [])
        (handedTo w l' m.log ++ w.messages l' []) := by
      rw [← hworld, ← hbyte, hl, Wiring.messages, List.filter_nil, List.map_nil, List.append_nil]
      by_cases hll : l' = l
      · subst l'
        simp only [hookOps, Links.put_self, if_pos]
        exact (hlawful l).read _ _ _ (hm.links l) hsome
      · simp only [hookOps, Links.put_other _ _ hll, Option.some.injEq, if_neg (Ne.symm hll),
          List.append_nil]
        exact hm.links l'
    have hfree := mediated_faultFree hconf hops hverdict env
    let taken : Machine (Links A T) G := { m with world := world }
    have hmed : Mediated start taken := ⟨hm.setup, hm.log⟩
    obtain ⟨m', hspin⟩ := hfree.total taken i byte hmed hconn
    have htrack := (hw.sameSetup hmed.setup).sinksTrack (fun l => (hlawful l).route)
      (fun l' => readFrom w l' m.log ++ if w.source i = some l' then [byte] else [])
      (fun l' => handedTo w l' m.log)
    obtain ⟨t, hlog, hslot, htbyte, hlinks⟩ := spinByte_tracks htrack htaken hspin
    refine ⟨m', hspin, hmed.spinByte hconf hops hverdict hconn hspin, ?_⟩
    intro l'
    rw [hlog, readFrom_append, handedTo_append, hslot, htbyte]
    exact hlinks l'

/-- Over every run of a gateway whose links are lawful the ledger is kept. -/
theorem ledger_kept {ops : ∀ l, LinkOps (A l)}
    {Inv : ∀ l, A l → List UInt8 → List MavlinkMessage → Prop}
    (hlawful : ∀ l, (ops l).Lawful (Inv l))
    {securityPolicyInit : SecurityPolicyMgmt → Except Fault SecurityPolicyMgmt}
    {prior initial p : Pipeline (Links A T)} {setup : List (LinkSetup ι T)}
    (hinit : pipelineInit securityPolicyInit prior = .ok initial)
    (hsetup : configure initial (setup.map (LinkSetup.op ops)) = .ok p)
    (hops : p.OpsKeepRouting)
    (hverdict : ∀ policy ∈ p.policies.policies, policy.VerdictIgnoresAttr)
    {env : Env (Links A T) G} (hclock : ∀ world, (env.timeUs world).2.link = world.link)
    (world : Links A T) (hstart : ∀ l, Inv l (world.link l) [] []) (parser : G)
    (actions : List Action) :
    Keeps (Ledger (wiring setup) Inv p)
      (runActions env (Machine.start p world parser) actions) := by
  have hconf := configure_configured (pipelineInit_configured hinit) hsetup
  have hw := configure_wired (pipelineInit_wired hinit) hsetup
  have hinv : ReadInvariant env (Ledger (wiring setup) Inv p) :=
    ledger_readInvariant hlawful hw hconf hops hverdict hclock
  have hflags : FlagInvariant (Ledger (G := G) (wiring setup) Inv p) := by
    intro m policyEnabled transformEnabled hm
    exact ⟨mediated_flagInvariant p m policyEnabled transformEnabled hm.toMediated, hm.links⟩
  exact hinv.runActions hflags ⟨mediated_start p world parser, hstart⟩ actions

end SecureGateway
