import SecureGateway.CertikosGateway
import SecureGateway.RingleaderSends

/-!
# The gateway on an untrusted network

A gateway on CertiKOS whose network is that of another kernel, reached over a ringleader
connection beside the adapters. Whatever completions that kernel posts, and in whatever
order, as long as it grants the receive arena, the policies are not passed, no record is
touched after it was freed, and what the connection gives away and sends is settled by what
the kernel delivered and what the gateway handed it.

## Implementation notes

What the kernel would post at each call is a sequence the link holds; of it the
completions of requests in flight are posted. The gateway has one connection on the ring,
and the log does not run its callbacks. The byte stored of the `char` that
`ringleader_tcp_read_byte` returns is the same whether `char` is signed or not.
-/

namespace SecureGateway

open Library

/-! ### The connection as a link -/

/-- Of what a kernel would post, the completions of requests in flight. -/
def pendingCqes (s : RlLink) : List Cqe → List Cqe
  | [] => []
  | cqe :: cqes =>
      match consumeCqe s cqe with
      | .ok t => cqe :: pendingCqes t cqes
      | .error .notPending => pendingCqes s cqes
      | .error _ => [cqe]

def Tick.pending (s : RlLink) (tick : Tick) : Tick :=
  { tick with found := pendingCqes s tick.found }

/-- The second tick of a routed message starts where its record is. -/
def RouteOutcome.pending (codec : MavlinkCodec) (s : RlLink) (msg : MavlinkMessage)
    (o : RouteOutcome) : RouteOutcome :=
  { o with
    before := o.before.pending s
    after :=
      match ringleaderTcpTick s (o.before.pending s) with
      | .ok t => o.after.pending (t.newRecord (codec.msgToSendBuffer msg) o.requested)
      | .error _ => o.after }

/-- What a call of the pipeline meets: a tick, or what happens around a routed message. -/
structure RlInput where
  tick : Tick
  outcome : RouteOutcome

/-- A connection with what the kernel will do call by call, and the calls made so far. -/
structure RlPort where
  link : RlLink
  inputs : Nat → RlInput
  calls : List RlLinkCall
  aborted : Bool

namespace RlPort

/-- What the present call meets. -/
def input (a : RlPort) : RlInput := a.inputs a.calls.length

def call (codec : MavlinkCodec) (a : RlPort) (c : RlLinkCall) : RlPort :=
  match rlLinkStep codec a.link c with
  | .ok s => { a with link := s, calls := a.calls ++ [c] }
  | .error _ => { a with aborted := true }

/-- `ringleader_tcp_init`. -/
def init (codec : MavlinkCodec) (a : RlPort) : RlPort :=
  a.call codec (.init (a.input.tick.pending a.link))

/-- `ringleader_tcp_has_more`. -/
def hasMore (codec : MavlinkCodec) (a : RlPort) : Int × RlPort :=
  let a := a.call codec (.hasMore (a.input.tick.pending a.link))
  (if ringleaderTcpHasMore a.link.ready.ring then 1 else 0, a)

/-- `ringleader_tcp_read_byte`. -/
def readByte (codec : MavlinkCodec) (a : RlPort) : Int × RlPort :=
  ((ringleaderTcpReadByte a.link.ready.ring).1.toNat, a.call codec .readByte)

/-- `ringleader_tcp_route_to`. -/
def routeTo (codec : MavlinkCodec) (msg : MavlinkMessage) (a : RlPort) : RlPort :=
  a.call codec (.routeTo msg (a.input.outcome.pending codec a.link msg))

def ops (codec : MavlinkCodec) : LinkOps RlPort where
  hasMore := hasMore codec
  readByte := readByte codec
  route := routeTo codec

/-- `hook_ringleader_tcp`. -/
def start (ready : Nat → UInt8) (queue : Nat → Bool) (inputs : Nat → RlInput) : RlPort :=
  ⟨hookRingleaderTcp ready queue, inputs, [], false⟩

end RlPort

/-! ### Only requests in flight complete -/

theorem mem_of_mem_pendingCqes {s : RlLink} {cqes : List Cqe} {cqe : Cqe}
    (h : cqe ∈ pendingCqes s cqes) : cqe ∈ cqes := by
  induction cqes generalizing s with
  | nil => exact h
  | cons c cqes ih =>
      rw [pendingCqes] at h
      cases hstep : consumeCqe s c with
      | ok t =>
          rw [hstep] at h
          rcases List.mem_cons.mp h with rfl | h
          · exact List.mem_cons_self
          · exact List.mem_cons_of_mem _ (ih h)
      | error e =>
          rw [hstep] at h
          cases e with
          | notPending => exact List.mem_cons_of_mem _ (ih h)
          | useAfterFree => exact List.mem_singleton.mp h ▸ List.mem_cons_self
          | nullArena => exact List.mem_singleton.mp h ▸ List.mem_cons_self

theorem foldlM_pendingCqes (s : RlLink) (cqes : List Cqe) :
    (pendingCqes s cqes).foldlM consumeCqe s ≠ .error .notPending := by
  induction cqes generalizing s with
  | nil =>
      intro h
      cases h
  | cons cqe cqes ih =>
      cases hstep : consumeCqe s cqe with
      | ok t =>
          simp only [pendingCqes, hstep, List.foldlM_cons, ok_bind]
          exact ih t
      | error e =>
          cases e with
          | notPending =>
              simp only [pendingCqes, hstep]
              exact ih s
          | useAfterFree =>
              simp only [pendingCqes, hstep, List.foldlM_cons]
              intro h
              cases h
          | nullArena =>
              simp only [pendingCqes, hstep, List.foldlM_cons]
              intro h
              cases h

theorem tick_pending (s : RlLink) (tick : Tick) :
    ringleaderTcpTick s (tick.pending s) ≠ .error .notPending := by
  unfold ringleaderTcpTick
  split
  · intro h
    have hfound := foldlM_pendingCqes s tick.found
    cases hfold : (pendingCqes s tick.found).foldlM consumeCqe s with
    | ok t =>
        rw [Tick.pending, hfold] at h
        cases h
    | error e =>
        rw [Tick.pending, hfold] at h
        cases h
        exact hfound hfold
  · intro h
    cases h

theorem routeTo_pending (codec : MavlinkCodec) (s : RlLink) (msg : MavlinkMessage)
    (o : RouteOutcome) :
    ringleaderTcpRouteTo codec s msg (o.pending codec s msg) ≠ .error .notPending := by
  intro h
  unfold ringleaderTcpRouteTo RouteOutcome.pending at h
  dsimp only at h
  cases hbefore : ringleaderTcpTick s (o.before.pending s) with
  | error e =>
      rw [hbefore] at h
      cases h
      exact tick_pending s o.before hbefore
  | ok t =>
      simp only [hbefore, ok_bind] at h
      split at h
      · split at h
        · cases hafter : ringleaderTcpTick (t.newRecord (codec.msgToSendBuffer msg) o.requested)
              (o.after.pending (t.newRecord (codec.msgToSendBuffer msg) o.requested)) with
          | error e =>
              rw [hafter] at h
              cases h
              exact tick_pending _ o.after hafter
          | ok u =>
              rw [hafter] at h
              cases h
        · cases h
      · cases h

/-! ### What is kept of the connection -/

/-- Every packet advances the ring. -/
def RlState.Advancing (s : RlState) (call : RlCall) : Prop :=
  ∀ packet, call = .recv packet → Advances s.ring packet.val

/-- Nothing but packets came to the ring. -/
structure RlLink.Receiving (s t : RlLink) : Prop where
  ringCalls : ∃ packets : List RlPacket, t.ringCalls = s.ringCalls ++ packets.map RlCall.recv
  read : t.ready.read = s.ready.read

theorem RlLink.Receiving.refl (s : RlLink) : s.Receiving s :=
  ⟨⟨[], (List.append_nil _).symm⟩, rfl⟩

theorem receiving_invariant (s : RlLink) : TickInvariant (RlLink.Receiving s) where
  consume u cqe t hu hmem h := by
    have hcalled := runCallback_called hmem h
    cases hpacket : cqe.packet? with
    | none =>
        obtain ⟨hready, hcalls⟩ := hcalled.silent hpacket
        exact ⟨hcalls ▸ hu.ringCalls, hready ▸ hu.read⟩
    | some packet =>
        obtain ⟨hready, hcalls⟩ := hcalled.received packet hpacket
        obtain ⟨packets, hpackets⟩ := hu.ringCalls
        refine ⟨⟨packets ++ [packet], ?_⟩, ?_⟩
        · rw [hcalls, List.map_append, ← List.append_assoc, ← hpackets]
          rfl
        · rw [hready]
          exact hu.read
  askArena _ hu _ := ⟨hu.ringCalls, hu.read⟩
  askSocket _ hu _ := ⟨hu.ringCalls, hu.read⟩
  askClient _ hu _ _ := ⟨hu.ringCalls, hu.read⟩

/-- The ring is asked for no byte it has not announced, as long as packets advance it. -/
def RlLink.Asked (ready : Nat → UInt8) (s : RlLink) : Prop :=
  Along rlStep RlState.Advancing (RlState.start ready) s.ringCalls →
    Along rlStep RlState.Follows (RlState.start ready) s.ringCalls

namespace RlLink.Asked

variable {ready : Nat → UInt8} {s t : RlLink}

theorem receiving (hs : s.Asked ready) (h : s.Receiving t) : t.Asked ready := by
  obtain ⟨packets, hpackets⟩ := h.ringCalls
  unfold RlLink.Asked
  rw [hpackets, along_append_iff, along_append_iff]
  rintro ⟨hadvancing, hrest⟩
  refine ⟨hs hadvancing, ?_⟩
  intro u hu
  refine (along_iff rlStep (fun _ => True) ?_ (fun _ _ _ _ _ _ _ => trivial) trivial).mp
    (hrest u hu)
  intro v c hc _
  obtain ⟨packet, -, rfl⟩ := List.mem_map.mp hc
  constructor
  · intro h
    exact h packet rfl
  · rintro h packet' ⟨⟩
    exact h

theorem hasMore (hs : s.Asked ready) : (s.onRing .hasMore).Asked ready := by
  change Along _ _ _ (s.ringCalls ++ [.hasMore]) → Along _ _ _ (s.ringCalls ++ [.hasMore])
  rw [along_append_iff, along_append_iff]
  rintro ⟨hadvancing, -⟩
  exact ⟨hs hadvancing, fun u _ => ⟨trivial, fun _ _ => trivial⟩⟩

theorem readByte (hs : s.Asked ready) (hrings : s.Rings ready) (hgranted : s.ready.granted) :
    (s.onRing .readByte).Asked ready := by
  change Along _ _ _ (s.ringCalls ++ [.readByte]) → Along _ _ _ (s.ringCalls ++ [.readByte])
  rw [along_append_iff, along_append_iff]
  rintro ⟨hadvancing, -⟩
  refine ⟨hs hadvancing, ?_⟩
  intro u hu
  obtain rfl : s.ready = u := Option.some.inj (hrings.run.symm.trans hu)
  exact ⟨hgranted, fun _ _ => trivial⟩

end RlLink.Asked

/-- The kernel refuses no receive arena during a call. -/
def RlInput.Grants (x : RlInput) : Prop :=
  ∀ cqe ∈ x.tick.found ++ (x.outcome.before.found ++ x.outcome.after.found), cqe.Grants

/-- The connection is where its calls led; what it gave away is what was read from its ring, and
the messages it was handed are those of its calls. -/
structure RlPort.Kept (codec : MavlinkCodec) (ready : Nat → UInt8) (queue : Nat → Bool)
    (a : RlPort) (bytes : List UInt8) (msgs : List MavlinkMessage) : Prop where
  reached : runLink codec (hookRingleaderTcp ready queue) a.calls = .ok a.link
  grants : ∀ n, (a.inputs n).Grants
  asked : a.link.Asked ready
  read : a.link.ready.read = bytes
  messages : a.calls.filterMap RlLinkCall.message? = msgs
  running : a.aborted = false

namespace RlPort.Kept

variable {codec : MavlinkCodec} {ready : Nat → UInt8} {queue : Nat → Bool} {a : RlPort}
  {bytes : List UInt8} {msgs : List MavlinkMessage} {c : RlLinkCall}

theorem sends (ha : a.Kept codec ready queue bytes msgs) : a.link.Sends :=
  sends_invariant.run (sends_start ready queue) ha.reached

theorem rings (ha : a.Kept codec ready queue bytes msgs) : a.link.Rings ready :=
  (rings_invariant ready).run (rings_start ready queue) ha.reached

/-- What a tick may find at the present call. -/
theorem grants_tick (ha : a.Kept codec ready queue bytes msgs) :
    ∀ cqe ∈ (a.input.tick.pending a.link).found, cqe.Grants := by
  intro cqe hcqe
  exact ha.grants a.calls.length cqe (List.mem_append_left _ (mem_of_mem_pendingCqes hcqe))

theorem grants_outcome (ha : a.Kept codec ready queue bytes msgs) (msg : MavlinkMessage) :
    ∀ cqe ∈ (RlLinkCall.routeTo msg (a.input.outcome.pending codec a.link msg)).cqes,
      cqe.Grants := by
  intro cqe hcqe
  apply ha.grants a.calls.length cqe
  apply List.mem_append_right
  rcases List.mem_append.mp hcqe with hbefore | hafter
  · exact List.mem_append_left _ (mem_of_mem_pendingCqes hbefore)
  · apply List.mem_append_right
    simp only [RouteOutcome.pending] at hafter
    split at hafter
    · exact mem_of_mem_pendingCqes hafter
    · exact hafter

/-- A call whose completions are of requests in flight does not stop. -/
theorem call_ok (ha : a.Kept codec ready queue bytes msgs)
    (hpending : rlLinkStep codec a.link c ≠ .error .notPending)
    (hgrants : ∀ cqe ∈ c.cqes, cqe.Grants) :
    ∃ t, rlLinkStep codec a.link c = .ok t ∧
      a.call codec c = { a with link := t, calls := a.calls ++ [c] } := by
  have hsafe : rlLinkStep codec a.link c ≠ .error .useAfterFree :=
    sends_invariant.step_ne_error (fun _ cqe _ hs => hs.safe cqe) ha.sends
  have hgranted : rlLinkStep codec a.link c ≠ .error .nullArena :=
    receives_invariant.step_ne_error (fun s cqe hcqe _ => consumeCqe_granted s (hgrants cqe hcqe))
      ha.sends.toReceives
  cases hstep : rlLinkStep codec a.link c with
  | ok t => exact ⟨t, rfl, by simp only [RlPort.call, hstep]⟩
  | error e =>
      cases e with
      | notPending => exact absurd hstep hpending
      | useAfterFree => exact absurd hstep hsafe
      | nullArena => exact absurd hstep hgranted

theorem runLink_call (ha : a.Kept codec ready queue bytes msgs) {t : RlLink}
    (hstep : rlLinkStep codec a.link c = .ok t) :
    runLink codec (hookRingleaderTcp ready queue) (a.calls ++ [c]) = .ok t := by
  have hreached := ha.reached
  unfold runLink at hreached ⊢
  rw [List.foldlM_append, hreached, ok_bind, List.foldlM_cons, hstep]
  rfl

/-- A call that reads nothing and routes nothing. -/
theorem quiet (ha : a.Kept codec ready queue bytes msgs) {t : RlLink}
    (hstep : rlLinkStep codec a.link c = .ok t) (hasked : t.Asked ready)
    (hread : t.ready.read = a.link.ready.read) (hmessage : c.message? = none) :
    { a with link := t, calls := a.calls ++ [c] : RlPort }.Kept codec ready queue bytes msgs := by
  refine ⟨ha.runLink_call hstep, ha.grants, hasked, hread.trans ha.read, ?_, ha.running⟩
  rw [List.filterMap_append, List.filterMap_cons_none hmessage, List.filterMap_nil,
    List.append_nil]
  exact ha.messages

theorem init (ha : a.Kept codec ready queue bytes msgs) :
    (a.init codec).Kept codec ready queue bytes msgs := by
  obtain ⟨t, hstep, hcall⟩ := ha.call_ok (c := .init (a.input.tick.pending a.link))
    (tick_pending a.link a.input.tick) ha.grants_tick
  have hreceiving := (receiving_invariant a.link).tick (RlLink.Receiving.refl a.link) hstep
  rw [RlPort.init, hcall]
  exact ha.quiet hstep (ha.asked.receiving hreceiving) hreceiving.read rfl

theorem hasMore_pending (s : RlLink) (tick : Tick) :
    rlLinkStep codec s (.hasMore (tick.pending s)) ≠ .error .notPending := by
  intro h
  have htick := tick_pending s tick
  rw [rlLinkStep] at h
  cases hfirst : ringleaderTcpTick s (tick.pending s) with
  | ok t =>
      rw [hfirst] at h
      cases h
  | error e =>
      rw [hfirst] at h
      cases h
      exact htick hfirst

theorem hasMore (ha : a.Kept codec ready queue bytes msgs) :
    (a.hasMore codec).2.Kept codec ready queue bytes msgs ∧
      (a.hasMore codec).2.link.ready.granted =
        ringleaderTcpHasMore (a.hasMore codec).2.link.ready.ring := by
  obtain ⟨t, hstep, hcall⟩ := ha.call_ok (hasMore_pending a.link a.input.tick)
    ha.grants_tick
  obtain ⟨u, htick, ht⟩ := bind_eq_ok_iff.mp hstep
  cases ht
  have hreceiving := (receiving_invariant a.link).tick (RlLink.Receiving.refl a.link) htick
  simp only [RlPort.hasMore, hcall]
  exact ⟨ha.quiet hstep (ha.asked.receiving hreceiving).hasMore hreceiving.read rfl, rfl⟩

theorem readByte (ha : a.Kept codec ready queue bytes msgs) (hgranted : a.link.ready.granted) :
    (a.readByte codec).2.Kept codec ready queue (bytes ++ [byteOfInt (a.readByte codec).1])
      msgs := by
  obtain ⟨t, hstep, hcall⟩ := ha.call_ok (c := .readByte) nofun nofun
  cases hstep
  simp only [RlPort.readByte, hcall]
  refine ⟨ha.runLink_call rfl, ha.grants, ha.asked.readByte ha.rings hgranted, ?_, ?_, ha.running⟩
  · rw [byteOfInt_toNat, ← ha.read]
    rfl
  · rw [List.filterMap_append, ha.messages]
    exact List.append_nil msgs

theorem routeTo (ha : a.Kept codec ready queue bytes msgs) (msg : MavlinkMessage) :
    (a.routeTo codec msg).Kept codec ready queue bytes (msgs ++ [msg]) := by
  have hpending : rlLinkStep codec a.link
      (.routeTo msg (a.input.outcome.pending codec a.link msg)) ≠ .error .notPending := by
    intro h
    rw [rlLinkStep] at h
    cases hroute : ringleaderTcpRouteTo codec a.link msg
        (a.input.outcome.pending codec a.link msg) with
    | ok r =>
        rw [hroute] at h
        cases h
    | error e =>
        rw [hroute] at h
        cases h
        exact routeTo_pending codec a.link msg a.input.outcome hroute
  obtain ⟨t, hstep, hcall⟩ := ha.call_ok hpending (ha.grants_outcome msg)
  obtain ⟨⟨rv, u⟩, hroute, ht⟩ := bind_eq_ok_iff.mp hstep
  cases ht
  have hrecord (s : RlLink) (buffer : List UInt8) (requested : ErrT)
      (hs : a.link.Receiving s) (_ : 0 < s.clientfd) :
      a.link.Receiving (s.newRecord buffer requested) := by
    unfold RlLink.newRecord
    dsimp only
    split <;> exact ⟨hs.ringCalls, hs.read⟩
  have hreceiving := (receiving_invariant a.link).routeTo hrecord
    (RlLink.Receiving.refl a.link) hroute
  rw [RlPort.routeTo, hcall]
  refine ⟨ha.runLink_call hstep, ha.grants, ha.asked.receiving hreceiving,
    hreceiving.read.trans ha.read, ?_, ha.running⟩
  rw [List.filterMap_append, ha.messages]
  rfl

end RlPort.Kept

theorem rlPort_lawful (codec : MavlinkCodec) (ready : Nat → UInt8) (queue : Nat → Bool) :
    (RlPort.ops codec).Lawful (RlPort.Kept codec ready queue) where
  silent a bytes msgs ha _ := ha.hasMore.1
  read a bytes msgs ha hmore := by
    obtain ⟨hkept, hgranted⟩ := ha.hasMore
    apply hkept.readByte
    rw [hgranted]
    by_contra hno
    apply hmore
    exact if_neg hno
  route a bytes msgs msg ha := ha.routeTo msg

theorem rlPort_start (codec : MavlinkCodec) (ready : Nat → UInt8) (queue : Nat → Bool)
    {inputs : Nat → RlInput} (hgrants : ∀ n, (inputs n).Grants) :
    (RlPort.start ready queue inputs).Kept codec ready queue [] [] :=
  ⟨rfl, hgrants, fun _ => trivial, rfl, rfl, rfl⟩

/-- The connection may be initialized any number of times before it is used. -/
theorem rlPort_inits (codec : MavlinkCodec) (ready : Nat → UInt8) (queue : Nat → Bool)
    {inputs : Nat → RlInput} (hgrants : ∀ n, (inputs n).Grants) (n : Nat) :
    ((RlPort.init codec)^[n] (RlPort.start ready queue inputs)).Kept codec ready queue [] [] := by
  induction n with
  | zero => exact rlPort_start codec ready queue hgrants
  | succ n ih =>
      rw [Function.iterate_succ_apply']
      exact ih.init

/-! ### The gateway -/

/-- The connection objects of a CertiKOS gateway with a network. -/
inductive NetPort
  | adapter (l : CertikosAdapter)
  | connection
deriving DecidableEq

/-- The link behind a connection object. -/
def NetLink : NetPort → Type
  | .adapter l => CertikosLink l
  | .connection => RlPort

def netOps (codec : MavlinkCodec) : ∀ l, LinkOps (NetLink l)
  | .adapter l => certikosOps codec l
  | .connection => RlPort.ops codec

/-- What is kept of each link. -/
def NetLink.Kept (codec : MavlinkCodec) (ready : Nat → UInt8) (queue : Nat → Bool) :
    ∀ l, NetLink l → List UInt8 → List MavlinkMessage → Prop
  | .adapter l => CertikosLink.Kept codec l
  | .connection => RlPort.Kept codec ready queue

theorem netOps_lawful {codec : MavlinkCodec}
    (hlen : ∀ msg, (codec.msgToSendBuffer msg).length ≤ mavlinkMaxPacketLen)
    (ready : Nat → UInt8) (queue : Nat → Bool) (l : NetPort) :
    (netOps codec l).Lawful (NetLink.Kept codec ready queue l) := by
  cases l with
  | adapter l => exact certikosOps_lawful hlen l
  | connection => exact rlPort_lawful codec ready queue

/-- What the transports of CertiKOS and the kernel of the network will do, and how often the
connection is initialized. -/
structure NetTransports where
  adapters : CertikosTransports
  ready : Nat → UInt8
  queue : Nat → Bool
  kernel : Nat → RlInput
  inits : Nat

/-- The objects as `pipeline_connect` leaves them. -/
def NetTransports.links (codec : MavlinkCodec) (t : NetTransports) : ∀ l, NetLink l
  | .adapter l => t.adapters.links l
  | .connection => (RlPort.init codec)^[t.inits] (RlPort.start t.ready t.queue t.kernel)

theorem NetTransports.kept (codec : MavlinkCodec) (t : NetTransports)
    (hgrants : ∀ n, (t.kernel n).Grants) (l : NetPort) :
    NetLink.Kept codec t.ready t.queue l (t.links codec l) [] [] := by
  cases l with
  | adapter l => exact t.adapters.kept codec l
  | connection => exact rlPort_inits codec t.ready t.queue hgrants t.inits

/-- The gateway between CertiKOS adapters and an untrusted network, in every run and whatever
the kernel of the network posts, but for a receive arena it refuses. It stops short for want of
fuel at most, touches no record that was freed, and hands every message completed to exactly the
sinks its route and the policies call for. Where packets advance its ring the connection gives
away the bytes it received, in order, but for the oldest ones where they do not fit. What it sent
are whole encodings of messages it was handed, none twice, to the one client; each message it
made a record for waits for its arena, was sent, was dropped by the submission queue, or is lost.
The adapters account for every byte. -/
theorem ringleader_gateway {G T : Type} (codec : MavlinkCodec)
    (hlen : ∀ msg, (codec.msgToSendBuffer msg).length ≤ mavlinkMaxPacketLen)
    {securityPolicyInit : SecurityPolicyMgmt → Except Fault SecurityPolicyMgmt}
    {prior initial p : Pipeline (Links NetLink T)} {setup : List (LinkSetup NetPort T)}
    (hinit : pipelineInit securityPolicyInit prior = .ok initial)
    (hsetup : configure initial (setup.map (LinkSetup.op (netOps codec))) = .ok p)
    (hops : p.OpsKeepRouting)
    (hverdict : ∀ policy ∈ p.policies.policies, policy.VerdictIgnoresAttr)
    {env : Env (Links NetLink T) G}
    (hclock : ∀ world, (env.timeUs world).2.link = world.link)
    (t : NetTransports) (hgrants : ∀ n, (t.kernel n).Grants) (rest : T) (parser : G)
    (actions : List Action) :
    let r := runActions env (Machine.start p ⟨t.links codec, rest⟩ parser) actions
    let m := finalMachine r
    let w := wiring setup
    let a : RlPort := m.world.link .connection
    let s := a.link
    OnlyFuel r ∧
    (∀ turn ∈ m.log, turn.calls.map Prod.fst = turn.expected p) ∧
    (∀ l, CertikosLink.Kept codec l (m.world.link (.adapter l))
      (readFrom w (.adapter l) m.log) (handedTo w (.adapter l) m.log)) ∧
    a.aborted = false ∧
    s.ready.received = (s.cqes.filterMap Cqe.packet?).flatMap Subtype.val ∧
    s.ready.read = readFrom w .connection m.log ∧
    (Along rlStep RlState.Advancing (.start t.ready) s.ringCalls →
      s.ready.Queues s.ringCalls ∧
      (readFrom w .connection m.log ++ s.ready.ring.unread).Sublist s.ready.received ∧
      (Along Traffic.step Traffic.Fits (Traffic.start UInt8 (readySize - 1))
          (s.ringCalls.flatMap rlTransfers) →
        readFrom w .connection m.log ++ s.ready.ring.unread = s.ready.received)) ∧
    s.routed.Sublist ((handedTo w .connection m.log).map codec.msgToSendBuffer) ∧
    Multiset.range s.routed.length =
      s.waiting + (s.sentRecords + s.dropped) + (s.lost : List Nat) ∧
    ∀ x ∈ s.sent, s.routed[x.1]? = some x.2.2 ∧ x.2.1 = s.clientfd ∧ 0 < s.clientfd := by
  intro r m w a s
  have hkept := ledger_kept (netOps_lawful hlen t.ready t.queue) hinit hsetup hops hverdict hclock
    ⟨t.links codec, rest⟩ (t.kept codec hgrants) parser actions
  have ha : a.Kept codec t.ready t.queue (readFrom w .connection m.log)
      (handedTo w .connection m.log) := hkept.inv.links .connection
  obtain ⟨hreceived, hdelivers⟩ := ha.rings.delivers
  refine ⟨hkept.fuel, fun turn hturn => (hkept.inv.log turn hturn).calls,
    fun l => hkept.inv.links (.adapter l), ha.running, hreceived, ha.read, ?_, ?_,
    ha.sends.ledger, ha.sends.to_client⟩
  · intro hadvancing
    rw [← ha.read]
    exact hdelivers (ha.asked hadvancing)
  · rw [← ha.messages]
    exact routed_sublist ha.reached

/-- The vehicle behind the CertiKOS UART, the legacy components behind the network. -/
def netSetup : List (LinkSetup NetPort Unit) :=
  [.hook SourceType.vmc.id SinkType.vmc.id (.adapter .uart),
    .hook SourceType.legacy.id SinkType.legacy.id .connection]

def netPipeline : Pipeline (Links NetLink Unit) :=
  match configure (shippedPipeline wireCodec)
      (netSetup.map (LinkSetup.op (netOps wireCodec))) with
  | .ok p => p
  | .error _ => .zero

theorem net_setup : configure (shippedPipeline wireCodec)
    (netSetup.map (LinkSetup.op (netOps wireCodec))) = .ok netPipeline := rfl

def netEnv : Env (Links NetLink Unit) (Nat → List UInt8) where
  debug := false
  parser := wireParser
  timeUs world := (0, world)

theorem mavlinkRecvPacketDepth_pos : 0 < mavlinkRecvPacketDepth := by decide

def firstBuffer : Fin mavlinkRecvPacketDepth := ⟨0, mavlinkRecvPacketDepth_pos⟩

theorem length_heartbeat :
    0 < heartbeat.length ∧ heartbeat.length ≤ mavlinkMaxPacketSize := by decide

def heartbeatPacket : RlPacket := ⟨heartbeat, length_heartbeat⟩

/-- The kernel has a client ready when the first message is routed, and then its heartbeat. -/
def netTransports : NetTransports where
  adapters := certikosTransports
  ready _ := 0
  queue _ := true
  inits := 2
  kernel n :=
    { tick :=
        { finished := true
          found :=
            if n = 1 then [.arena .ok, .socket 5]
            else if n = 3 then
              [.send 7 0, .recv 7 firstBuffer (some heartbeatPacket)]
            else [] }
      outcome := ⟨⟨true, [.accept 5 7]⟩, true, .ok, ⟨true, [.sendArena 0 .ok]⟩⟩ }

theorem netPipeline_opsKeepRouting : netPipeline.OpsKeepRouting := by
  have hsource : ∀ i, (netPipeline.sources i).transform.isSome = false := by decide
  have hsink : ∀ k, (netPipeline.sinks k).transform.isSome = false := by decide
  have hroutes : netPipeline.RoutesKeepMessage :=
    (configure_wired (pipelineInit_wired (pipelineInit_shipped wireCodec))
      net_setup).routesKeepMessage
  apply hroutes.opsKeepRouting
  · intro i f hf
    simpa [hf] using hsource i
  · intro k f hf
    simpa [hf] using hsink k

theorem netTransports_grants (n : Nat) : (netTransports.kernel n).Grants := by
  intro cqe hcqe
  simp only [netTransports] at hcqe
  split at hcqe
  · simp only [List.cons_append, List.nil_append, List.mem_cons, List.not_mem_nil, or_false] at hcqe
    rcases hcqe with rfl | rfl | rfl | rfl
    · rfl
    · trivial
    · trivial
    · trivial
  · split at hcqe
    · simp only [List.cons_append, List.nil_append, List.mem_cons, List.not_mem_nil,
        or_false] at hcqe
      rcases hcqe with rfl | rfl | rfl | rfl <;> trivial
    · simp only [List.cons_append, List.nil_append, List.mem_cons, List.not_mem_nil,
        or_false] at hcqe
      rcases hcqe with rfl | rfl <;> trivial

/-- The round in which the heartbeats cross. -/
def netRound : Machine (Links NetLink Unit) (Nat → List UInt8) :=
  finalMachine (runActions netEnv
    (Machine.start netPipeline ⟨netTransports.links wireCodec, ()⟩ fun _ => []) [.spin 20])

/-- Both heartbeats cross the gateway. -/
theorem ringleader_gateway_heartbeats :
    (netRound.world.link (.adapter .uart) : CertikosUartLink).written = [heartbeat] ∧
      (netRound.world.link .connection : RlPort).link.sent = [(0, 7, heartbeat)] ∧
      (netRound.world.link .connection : RlPort).aborted = false := by
  have hclock : ∀ world, (netEnv.timeUs world).2.link = world.link := fun _ => rfl
  obtain ⟨-, -, hadapters, hrunning, -⟩ := ringleader_gateway wireCodec
    length_wireSendBuffer_le (pipelineInit_shipped wireCodec) net_setup
    netPipeline_opsKeepRouting (shippedPolicies_verdictIgnoresAttr wireCodec) hclock
    netTransports netTransports_grants () (fun _ => []) [.spin 20]
  have huart : CertikosUartLink.Kept wireCodec (netRound.world.link (.adapter .uart)) _ _ :=
    hadapters .uart
  exact ⟨huart.written.trans (by decide +kernel), by decide +kernel, hrunning⟩

end SecureGateway
