import SecureGateway.Library.Checked
import SecureGateway.Library.Outstanding
import SecureGateway.Mavlink
import SecureGateway.Ringleader
import SecureGateway.Wire

/-!
# The ringleader connection

The ringleader transport hands every operation to the kernel and learns the outcome from a
completion, in whatever order the kernel posts completions. `ringleader_tcp_tick` runs the
callbacks of the completions it finds and then starts what can be started.

## Implementation notes

A request is what a callback is registered for; `bind` and `listen` have none and nothing
waits for them. Whether the submission queue takes a request is not looked at: one that is
refused never completes. What the callbacks of one connection touch is one state; that a
callback touches a record that is not allocated is the stop `useAfterFree`, that it uses an
arena the kernel refused is the stop `nullArena`, and that the kernel completes a request
that is not in flight is the stop `notPending`. A receive completes with the packet or, for a
result of zero or below, with nothing. `refused`, `cqes` and `ringCalls` note what happened and
are not read by the code.
-/

namespace SecureGateway

open Library

/-- `err_t`. -/
inductive ErrT
  | ok
  | noMem
  | other
deriving DecidableEq

/-- An operation in flight, with what its callback is given. -/
inductive Request
  | arena
  | socket
  | accept (fd : Int)
  | recv (fd : Int) (index : Fin mavlinkRecvPacketDepth)
  | sendArena (record : Nat)
  | send (fd : Int) (record : Nat)
deriving DecidableEq

/-- `struct io_uring_cqe`: the request and its result. -/
inductive Cqe
  | arena (err : ErrT)
  | socket (res : Int)
  | accept (fd res : Int)
  | recv (fd : Int) (index : Fin mavlinkRecvPacketDepth) (packet : Option RlPacket)
  | sendArena (record : Nat) (err : ErrT)
  | send (fd : Int) (record : Nat)

def Cqe.request : Cqe → Request
  | arena _ => .arena
  | socket _ => .socket
  | accept fd _ => .accept fd
  | recv fd index _ => .recv fd index
  | sendArena record _ => .sendArena record
  | send fd record => .send fd record

/-- `struct pkt_send_data`; whether its arena is set. -/
structure PktSendData where
  buffer : List UInt8
  arena : Bool

inductive RlStop
  | notPending
  | useAfterFree
  | nullArena
deriving DecidableEq

/-- `struct mavlink_rl` with the requests in flight and the records of the heap. A record is
named by the number of records before it. `queue` is which of its requests, in order, the
submission queue will take, and `preps` how many it was handed. -/
structure RlLink where
  flagArena : Bool
  flagSocket : Bool
  flagBindListen : Bool
  arena : Bool
  sockfd : Int
  clientfd : Int
  ready : RlState
  queue : Nat → Bool
  preps : Nat
  inflight : Multiset Request
  refused : Multiset Request
  records : Nat → Option PktSendData
  routed : List (List UInt8)
  sent : List (Nat × Int × List UInt8)
  lost : List Nat
  cqes : List Cqe
  ringCalls : List RlCall

namespace RlLink

def post (s : RlLink) (r : Request) : RlLink := { s with inflight := r ::ₘ s.inflight }

/-- A request whose result is not looked at: one that the queue refuses gets no callback. -/
def prep (s : RlLink) (r : Request) : RlLink :=
  { s with
    inflight := if s.queue s.preps then r ::ₘ s.inflight else s.inflight
    refused := if s.queue s.preps then s.refused else r ::ₘ s.refused
    preps := s.preps + 1 }

def prepAll (s : RlLink) (rs : List Request) : RlLink := rs.foldl prep s

/-- The request is taken off the ring. -/
def complete (s : RlLink) (cqe : Cqe) : RlLink :=
  { s with inflight := s.inflight.erase cqe.request, cqes := s.cqes ++ [cqe] }

/-- What the reader's side of the ring does. -/
def onRing (s : RlLink) (call : RlCall) : RlLink :=
  { s with ready := (rlStep s.ready call).getD s.ready, ringCalls := s.ringCalls ++ [call] }

end RlLink

/-- One receive for every buffer. -/
def recvRequests (fd : Int) : List Request :=
  (List.finRange mavlinkRecvPacketDepth).map (Request.recv fd)

/-- The packets are pushed on the arena also when there is none. -/
def ringleaderTcpRecvArenaCb (s : RlLink) (err : ErrT) : Except RlStop RlLink :=
  if err = .ok then .ok { s with arena := true } else .error .nullArena

def ringleaderTcpSocketCb (s : RlLink) (res : Int) : RlLink := { s with sockfd := res }

def ringleaderTcpAcceptCb (s : RlLink) (res : Int) : RlLink :=
  { s with clientfd := res }.prepAll (recvRequests res)

/-- A receive is asked for again for the buffer it has filled. -/
def ringleaderTcpRecvCompletion (s : RlLink) (index : Fin mavlinkRecvPacketDepth)
    (packet : Option RlPacket) : RlLink :=
  match packet with
  | some packet => (s.onRing (.recv packet)).prep (.recv s.clientfd index)
  | none => s

/-- A record whose arena is refused stays allocated. -/
def ringleaderTcpSendArenaCb (s : RlLink) (record : Nat) (err : ErrT) : Except RlStop RlLink :=
  match s.records record with
  | none => .error .useAfterFree
  | some data =>
      if err = .ok then
        .ok { s.prep (.send s.clientfd record) with
              records := Function.update s.records record (some { data with arena := true })
              sent :=
                if s.queue s.preps then s.sent ++ [(record, s.clientfd, data.buffer)]
                else s.sent }
      else .ok { s with lost := s.lost ++ [record] }

def ringleaderTcpSendCb (s : RlLink) (record : Nat) : Except RlStop RlLink :=
  match s.records record with
  | none => .error .useAfterFree
  | some _ => .ok { s with records := Function.update s.records record none }

def runCallback (s : RlLink) : Cqe → Except RlStop RlLink
  | .arena err => ringleaderTcpRecvArenaCb s err
  | .socket res => .ok (ringleaderTcpSocketCb s res)
  | .accept _ res => .ok (ringleaderTcpAcceptCb s res)
  | .recv _ index packet => .ok (ringleaderTcpRecvCompletion s index packet)
  | .sendArena record err => ringleaderTcpSendArenaCb s record err
  | .send _ record => ringleaderTcpSendCb s record

/-- `ringleader_consume_cqe`. -/
def consumeCqe (s : RlLink) (cqe : Cqe) : Except RlStop RlLink :=
  if cqe.request ∈ s.inflight then runCallback (s.complete cqe) cqe else .error .notPending

/-- The arena and the socket are asked for once, and so is a client once both are there. -/
def tickStart (s : RlLink) : RlLink :=
  if s.arena = false then
    let s := if s.flagArena then s else { s.prep .arena with flagArena := true }
    if s.flagSocket then s else { s.prep .socket with flagSocket := true }
  else if s.sockfd ≠ -1 ∧ s.flagBindListen = false then
    { s.prep (.accept s.sockfd) with flagBindListen := true }
  else s

/-- What a tick meets: whether the library is up, and the completions it finds. -/
structure Tick where
  finished : Bool
  found : List Cqe

def ringleaderTcpTick (s : RlLink) (tick : Tick) : Except RlStop RlLink := do
  if tick.finished then
    let s ← tick.found.foldlM consumeCqe s
    return tickStart s
  else return s

/-- What `ringleader_tcp_route_to` meets. -/
structure RouteOutcome where
  before : Tick
  allocated : Bool
  requested : ErrT
  after : Tick

/-- A record for the message, in flight if its arena could be asked for. -/
def RlLink.newRecord (s : RlLink) (buffer : List UInt8) (requested : ErrT) : RlLink :=
  let record := s.routed.length
  let s := { s with records := Function.update s.records record (some ⟨buffer, false⟩)
                    routed := s.routed ++ [buffer] }
  if requested = .ok then s.post (.sendArena record) else { s with lost := s.lost ++ [record] }

def ringleaderTcpRouteTo (codec : MavlinkCodec) (s : RlLink) (msg : MavlinkMessage)
    (o : RouteOutcome) : Except RlStop (ErrT × RlLink) := do
  let s ← ringleaderTcpTick s o.before
  if o.before.finished ∧ s.clientfd > 0 then
    if o.allocated then
      let s ← ringleaderTcpTick (s.newRecord (codec.msgToSendBuffer msg) o.requested) o.after
      return (o.requested, s)
    else return (.noMem, s)
  else return (.ok, s)

/-- The calls the pipeline makes on a connection. -/
inductive RlLinkCall
  | init (tick : Tick)
  | hasMore (tick : Tick)
  | readByte
  | routeTo (msg : MavlinkMessage) (o : RouteOutcome)

def rlLinkStep (codec : MavlinkCodec) (s : RlLink) : RlLinkCall → Except RlStop RlLink
  | .init tick => ringleaderTcpTick s tick
  | .hasMore tick => do
      let s ← ringleaderTcpTick s tick
      return s.onRing .hasMore
  | .readByte => .ok (s.onRing .readByte)
  | .routeTo msg o => do
      let (_, s) ← ringleaderTcpRouteTo codec s msg o
      return s

/-- The completions a call may find. -/
def RlLinkCall.cqes : RlLinkCall → List Cqe
  | init tick => tick.found
  | hasMore tick => tick.found
  | readByte => []
  | routeTo _ o => o.before.found ++ o.after.found

def hookRingleaderTcp (ready : Nat → UInt8) (queue : Nat → Bool) : RlLink where
  flagArena := false
  flagSocket := false
  flagBindListen := false
  arena := false
  sockfd := -1
  clientfd := -1
  ready := .start ready
  queue := queue
  preps := 0
  inflight := 0
  refused := 0
  records _ := none
  routed := []
  sent := []
  lost := []
  cqes := []
  ringCalls := []

def runLink (codec : MavlinkCodec) (s : RlLink) (calls : List RlLinkCall) :
    Except RlStop RlLink :=
  calls.foldlM (rlLinkStep codec) s

/-! ### Invariants of a connection -/

/-- A property of the connection that each step of a tick keeps. -/
structure TickInvariant (Inv : RlLink → Prop) : Prop where
  consume : ∀ s cqe t, Inv s → cqe.request ∈ s.inflight →
    runCallback (s.complete cqe) cqe = .ok t → Inv t
  askArena : ∀ s, Inv s → s.flagArena = false → Inv { s.prep .arena with flagArena := true }
  askSocket : ∀ s, Inv s → s.flagSocket = false →
    Inv { s.prep .socket with flagSocket := true }
  askClient : ∀ s, Inv s → s.arena = true → s.flagBindListen = false →
    Inv { s.prep (.accept s.sockfd) with flagBindListen := true }

/-- A property of the connection that each of its steps keeps. -/
structure LinkInvariant (Inv : RlLink → Prop) : Prop extends TickInvariant Inv where
  record : ∀ s buffer requested, Inv s → 0 < s.clientfd → Inv (s.newRecord buffer requested)
  poll : ∀ s, Inv s → Inv (s.onRing .hasMore) ∧ Inv (s.onRing .readByte)

section Invariants

variable {Inv : RlLink → Prop} {codec : MavlinkCodec} {s t : RlLink}

theorem consumeCqe_eq_ok_iff {cqe : Cqe} :
    consumeCqe s cqe = .ok t ↔
      cqe.request ∈ s.inflight ∧ runCallback (s.complete cqe) cqe = .ok t := by
  unfold consumeCqe
  split
  · rename_i hmem
    exact (and_iff_right hmem).symm
  · rename_i hmem
    constructor
    · intro h
      cases h
    · rintro ⟨h, -⟩
      exact absurd h hmem

theorem TickInvariant.tickStart (hinv : TickInvariant Inv) (hs : Inv s) : Inv (tickStart s) := by
  unfold SecureGateway.tickStart
  split
  · have harena : Inv (if s.flagArena then s else { s.prep .arena with flagArena := true }) := by
      split
      · exact hs
      · rename_i hflag
        exact hinv.askArena s hs (Bool.eq_false_iff.mpr hflag)
    dsimp only
    generalize (if s.flagArena then s else { s.prep .arena with flagArena := true }) = u at harena
    split
    · exact harena
    · rename_i hflag
      exact hinv.askSocket u harena (Bool.eq_false_iff.mpr hflag)
  · rename_i harena
    split
    · rename_i hguard
      exact hinv.askClient s hs (Bool.eq_true_of_not_eq_false harena) hguard.2
    · exact hs

theorem TickInvariant.tick (hinv : TickInvariant Inv) {tick : Tick} (hs : Inv s)
    (h : ringleaderTcpTick s tick = .ok t) : Inv t := by
  unfold ringleaderTcpTick at h
  split at h
  · obtain ⟨u, hfound, hstart⟩ := bind_eq_ok_iff.mp h
    cases hstart
    apply hinv.tickStart
    refine foldlM_invariant ?_ hs hfound
    intro v cqe _ w hv hstep
    obtain ⟨hmem, hrun⟩ := consumeCqe_eq_ok_iff.mp hstep
    exact hinv.consume v cqe w hv hmem hrun
  · cases h
    exact hs

theorem TickInvariant.routeTo (hinv : TickInvariant Inv)
    (hrecord : ∀ s buffer requested, Inv s → 0 < s.clientfd → Inv (s.newRecord buffer requested))
    {msg : MavlinkMessage} {o : RouteOutcome} {rv : ErrT} (hs : Inv s)
    (h : ringleaderTcpRouteTo codec s msg o = .ok (rv, t)) : Inv t := by
  obtain ⟨u, hbefore, h⟩ := bind_eq_ok_iff.mp h
  have hu := hinv.tick hs hbefore
  split at h
  · rename_i hguard
    split at h
    · obtain ⟨v, hafter, h⟩ := bind_eq_ok_iff.mp h
      cases h
      exact hinv.tick (hrecord u _ _ hu hguard.2) hafter
    · cases h
      exact hu
  · cases h
    exact hu

theorem LinkInvariant.step (hinv : LinkInvariant Inv) {call : RlLinkCall} (hs : Inv s)
    (h : rlLinkStep codec s call = .ok t) : Inv t := by
  cases call with
  | init tick => exact hinv.tick hs h
  | hasMore tick =>
      obtain ⟨u, htick, h⟩ := bind_eq_ok_iff.mp h
      cases h
      exact (hinv.poll u (hinv.tick hs htick)).1
  | readByte =>
      cases h
      exact (hinv.poll s hs).2
  | routeTo msg o =>
      obtain ⟨⟨rv, u⟩, hroute, h⟩ := bind_eq_ok_iff.mp h
      cases h
      exact hinv.toTickInvariant.routeTo hinv.record hs hroute

/-- What every step keeps holds in every state a run reaches. -/
theorem LinkInvariant.run (hinv : LinkInvariant Inv) {calls : List RlLinkCall} (hs : Inv s)
    (h : runLink codec s calls = .ok t) : Inv t :=
  foldlM_invariant (fun _ _ _ _ hu hstep => hinv.step hu hstep) hs h

theorem TickInvariant.tick_ne_error (hinv : TickInvariant Inv) {e : RlStop} {tick : Tick}
    (safe : ∀ s, ∀ cqe ∈ tick.found, Inv s → consumeCqe s cqe ≠ .error e) (hs : Inv s) :
    ringleaderTcpTick s tick ≠ .error e := by
  unfold ringleaderTcpTick
  split
  · have hfound : tick.found.foldlM consumeCqe s ≠ .error e := by
      refine foldlM_ne_error ?_ safe hs
      intro u cqe _ v hu hstep
      obtain ⟨hmem, hrun⟩ := consumeCqe_eq_ok_iff.mp hstep
      exact hinv.consume u cqe v hu hmem hrun
    intro h
    cases hfold : tick.found.foldlM consumeCqe s with
    | ok u =>
        rw [hfold] at h
        cases h
    | error e' =>
        rw [hfold] at h
        cases h
        exact hfound hfold
  · intro h
    cases h

theorem LinkInvariant.step_ne_error (hinv : LinkInvariant Inv) {e : RlStop} {call : RlLinkCall}
    (safe : ∀ s, ∀ cqe ∈ call.cqes, Inv s → consumeCqe s cqe ≠ .error e) (hs : Inv s) :
    rlLinkStep codec s call ≠ .error e := by
  have htick {u : RlLink} (hu : Inv u) {tick : Tick}
      (hfound : ∀ cqe ∈ tick.found, cqe ∈ call.cqes) : ringleaderTcpTick u tick ≠ .error e :=
    hinv.tick_ne_error (fun v cqe hcqe => safe v cqe (hfound cqe hcqe)) hu
  cases call with
  | init tick => exact htick hs fun _ hcqe => hcqe
  | hasMore tick =>
      intro h
      rw [rlLinkStep] at h
      cases hfirst : ringleaderTcpTick s tick with
      | error e' =>
          rw [hfirst] at h
          cases h
          exact htick hs (fun _ hcqe => hcqe) hfirst
      | ok u =>
          rw [hfirst] at h
          cases h
  | readByte =>
      intro h
      cases h
  | routeTo msg o =>
      intro h
      rw [rlLinkStep, ringleaderTcpRouteTo] at h
      cases hfirst : ringleaderTcpTick s o.before with
      | error e' =>
          rw [hfirst] at h
          cases h
          exact htick hs (fun _ hcqe => List.mem_append_left _ hcqe) hfirst
      | ok u =>
          rw [hfirst, ok_bind] at h
          split at h
          · rename_i hguard
            have hu := hinv.record u (codec.msgToSendBuffer msg) o.requested
              (hinv.tick hs hfirst) hguard.2
            split at h
            · cases hafter : ringleaderTcpTick
                (u.newRecord (codec.msgToSendBuffer msg) o.requested) o.after with
              | error e' =>
                  rw [hafter] at h
                  cases h
                  exact htick hu (fun _ hcqe => List.mem_append_right _ hcqe) hafter
              | ok v =>
                  rw [hafter] at h
                  cases h
            · cases h
          · cases h

/-- A stop that no completion leads to ends no run. -/
theorem LinkInvariant.run_ne_error (hinv : LinkInvariant Inv) {e : RlStop}
    {calls : List RlLinkCall}
    (safe : ∀ call ∈ calls, ∀ s, ∀ cqe ∈ call.cqes, Inv s → consumeCqe s cqe ≠ .error e)
    (hs : Inv s) : runLink codec s calls ≠ .error e :=
  foldlM_ne_error (fun _ _ _ _ hu hstep => hinv.step hu hstep)
    (fun _ call hcall hu => hinv.step_ne_error (safe call hcall) hu) hs

end Invariants

/-! ### Receives -/

/-- The buffer a receive fills. -/
def Request.buffer? : Request → Option (Fin mavlinkRecvPacketDepth)
  | recv _ index => some index
  | _ => none

def Request.isAccept : Request → Bool
  | accept _ => true
  | _ => false

/-- A receive that completed with nothing. -/
def Cqe.isRecvEnd : Cqe → Bool
  | recv _ _ none => true
  | _ => false

namespace RlLink

/-- The requests that have not completed: those in flight, and those that never will be. -/
def requests (s : RlLink) : Multiset Request := s.inflight + s.refused

/-- How many requests of a kind were made so far: those in flight, those that were refused and
those that completed. -/
def posted (p : Request → Bool) (s : RlLink) : Nat :=
  s.requests.countP (p ·) + s.cqes.countP fun cqe => p cqe.request

/-- The buffers of the receives in flight. -/
def receiving (s : RlLink) : Multiset (Fin mavlinkRecvPacketDepth) :=
  held Request.buffer? s.inflight

/-- The buffers whose receive was refused. -/
def stranded (s : RlLink) : Multiset (Fin mavlinkRecvPacketDepth) :=
  held Request.buffer? s.refused

def accepted (s : RlLink) : Bool := s.cqes.any fun cqe => cqe.request.isAccept

/-- How many receives completed with nothing. -/
def ended (s : RlLink) : Nat := s.cqes.countP Cqe.isRecvEnd

theorem mem_requests {s : RlLink} {r : Request} (h : r ∈ s.inflight) : r ∈ s.requests :=
  Multiset.mem_add.mpr (Or.inl h)

theorem requests_complete {s : RlLink} {cqe : Cqe} (h : cqe.request ∈ s.inflight) :
    (s.complete cqe).requests = s.requests.erase cqe.request :=
  (Multiset.erase_add_left_pos _ h).symm

theorem requests_post (s : RlLink) (r : Request) : (s.post r).requests = r ::ₘ s.requests :=
  Multiset.cons_add _ _ _

theorem requests_prep (s : RlLink) (r : Request) : (s.prep r).requests = r ::ₘ s.requests := by
  unfold requests prep
  dsimp only
  split
  · exact Multiset.cons_add _ _ _
  · exact Multiset.add_cons _ _ _

theorem inflight_prep_le (s : RlLink) (r : Request) : (s.prep r).inflight ≤ r ::ₘ s.inflight := by
  unfold prep
  dsimp only
  split
  · exact le_rfl
  · exact Multiset.le_cons_self _ _

/-- A request that holds nothing, whether or not the queue takes it. -/
theorem held_prep {K : Type} {f : Request → Option K} {r : Request} (h : f r = none)
    (s : RlLink) :
    held f (s.prep r).requests = held f s.requests ∧
      held f (s.prep r).inflight = held f s.inflight ∧
      held f (s.prep r).refused = held f s.refused := by
  refine ⟨by rw [requests_prep, held_cons_none h], ?_⟩
  unfold prep
  dsimp only
  split
  · exact ⟨held_cons_none h, rfl⟩
  · exact ⟨rfl, held_cons_none h⟩

/-- Only the pool and its refused requests tell that requests were made. -/
theorem prepAll_spec (s : RlLink) (rs : List Request) :
    ∃ preps inflight refused,
      s.prepAll rs = { s with preps := preps, inflight := inflight, refused := refused } ∧
        inflight + refused = (rs : Multiset Request) + s.requests ∧
        ∀ {K : Type} (f : Request → Option K), (∀ r ∈ rs, f r = none) →
          held f inflight = held f s.inflight ∧ held f refused = held f s.refused := by
  induction rs generalizing s with
  | nil => exact ⟨s.preps, s.inflight, s.refused, rfl, (Multiset.zero_add _).symm,
      fun _ _ => ⟨rfl, rfl⟩⟩
  | cons r rs ih =>
      obtain ⟨preps, inflight, refused, heq, hsum, hheld⟩ := ih (s.prep r)
      refine ⟨preps, inflight, refused, heq, ?_, ?_⟩
      · rw [hsum, requests_prep, ← Multiset.cons_coe, Multiset.cons_add, Multiset.add_cons]
      · intro K f hf
        obtain ⟨hinflight, hrefused⟩ := hheld f fun r' hr' => hf r' (List.mem_cons_of_mem _ hr')
        rw [hinflight, hrefused]
        exact (held_prep (hf r List.mem_cons_self) s).2

theorem acceptCb_spec (s : RlLink) (res : Int) :
    ∃ preps inflight refused,
      ringleaderTcpAcceptCb s res =
          { s with
            clientfd := res, preps := preps, inflight := inflight, refused := refused } ∧
        inflight + refused = (recvRequests res : Multiset Request) + s.requests ∧
        ∀ {K : Type} (f : Request → Option K), (∀ index, f (.recv res index) = none) →
          held f inflight = held f s.inflight ∧ held f refused = held f s.refused := by
  obtain ⟨preps, inflight, refused, heq, hsum, hheld⟩ :=
    prepAll_spec { s with clientfd := res } (recvRequests res)
  refine ⟨preps, inflight, refused, heq, hsum, ?_⟩
  intro K f hf
  apply hheld f
  intro r hr
  obtain ⟨index, -, rfl⟩ := List.mem_map.mp hr
  exact hf index

theorem posted_complete {s : RlLink} {cqe : Cqe} (h : cqe.request ∈ s.inflight)
    (p : Request → Bool) : (s.complete cqe).posted p = s.posted p := by
  have hcount : s.requests.countP (p ·) =
      (s.requests.erase cqe.request).countP (p ·) + if p cqe.request then 1 else 0 := by
    rw [← Multiset.countP_cons, Multiset.cons_erase (mem_requests h)]
  have hcqes : (s.complete cqe).cqes = s.cqes ++ [cqe] := rfl
  simp only [posted, requests_complete h, hcqes, List.countP_append, List.countP_singleton,
    hcount]
  omega

theorem posted_of_requests {s t : RlLink} {r : Request} (h : t.requests = r ::ₘ s.requests)
    (hcqes : t.cqes = s.cqes) (p : Request → Bool) :
    t.posted p = s.posted p + if p r then 1 else 0 := by
  simp only [posted, h, hcqes, Multiset.countP_cons]
  omega

/-- A kind of request that was made at most once and is in flight did not complete. -/
theorem not_completed {s : RlLink} {p : Request → Bool} (honce : s.posted p ≤ 1) {r : Request}
    (hr : r ∈ s.inflight) (hp : p r = true) : (s.cqes.any fun cqe => p cqe.request) = false := by
  have hpos : 0 < s.requests.countP (p ·) :=
    Multiset.countP_pos.mpr ⟨r, mem_requests hr, hp⟩
  have hzero : s.cqes.countP (fun cqe => p cqe.request) = 0 := by
    unfold posted at honce
    omega
  rw [List.any_eq_false]
  intro cqe hcqe
  have hnone := List.countP_eq_zero.mp hzero cqe hcqe
  exact hnone

end RlLink

theorem held_recvRequests (fd : Int) :
    held Request.buffer? (recvRequests fd : Multiset Request) =
      (List.finRange mavlinkRecvPacketDepth : List _) := by
  rfl

/-- Arena, socket and client are asked for at most once. Until the client is there no receive
was made; from then on each of the buffers has its receive, for that client, or the receive
ended. -/
structure RlLink.Receives (s : RlLink) : Prop where
  arena : s.posted (· = .arena) = s.flagArena.toNat
  socket : s.posted (· = .socket) = s.flagSocket.toNat
  accept : s.posted Request.isAccept = s.flagBindListen.toNat
  ready : s.flagBindListen = true → s.arena = true
  buffers : Exclusive Request.buffer? s.requests
  client : ∀ fd index, .recv fd index ∈ s.requests → fd = s.clientfd
  before : s.accepted = false →
    held Request.buffer? s.requests = 0 ∧ s.ended = 0 ∧ s.clientfd = -1
  after : s.accepted = true →
    (held Request.buffer? s.requests).card + s.ended = mavlinkRecvPacketDepth
  served : s.accepted = true → ∃ cqe ∈ s.cqes, ∃ fd, cqe = .accept fd s.clientfd

namespace RlLink.Receives

variable {s : RlLink} {cqe : Cqe}

theorem once (hs : s.Receives) : s.posted (· = .arena) ≤ 1 ∧ s.posted (· = .socket) ≤ 1 ∧
    s.posted Request.isAccept ≤ 1 := by
  rw [hs.arena, hs.socket, hs.accept]
  exact ⟨Bool.toNat_le _, Bool.toNat_le _, Bool.toNat_le _⟩

theorem accepted_complete (s : RlLink) (cqe : Cqe) :
    (s.complete cqe).accepted = (s.accepted || cqe.request.isAccept) := by
  simp [accepted, complete]

theorem ended_complete (s : RlLink) (cqe : Cqe) :
    (s.complete cqe).ended = s.ended + cqe.isRecvEnd.toNat := by
  cases h : cqe.isRecvEnd <;> simp [ended, complete, h]

/-- A completion that is neither of the client nor of a receive. -/
theorem quiet (hs : s.Receives) (hmem : cqe.request ∈ s.inflight)
    (hbuffer : cqe.request.buffer? = none) (haccept : cqe.request.isAccept = false)
    (hend : cqe.isRecvEnd = false) : (s.complete cqe).Receives := by
  have hrequests := requests_complete hmem
  have hheld : held Request.buffer? (s.complete cqe).requests =
      held Request.buffer? s.requests := by
    rw [hrequests, held_erase_none (mem_requests hmem) hbuffer]
  have haccepted : (s.complete cqe).accepted = s.accepted := by
    rw [accepted_complete, haccept, Bool.or_false]
  have hended : (s.complete cqe).ended = s.ended := by
    rw [ended_complete, hend]
    rfl
  constructor
  · rw [posted_complete hmem, hs.arena]
    rfl
  · rw [posted_complete hmem, hs.socket]
    rfl
  · rw [posted_complete hmem, hs.accept]
    rfl
  · exact hs.ready
  · rw [Exclusive, hheld]
    exact hs.buffers
  · intro fd index h
    rw [hrequests] at h
    exact hs.client fd index (Multiset.mem_of_mem_erase h)
  · rw [haccepted, hheld, hended]
    exact hs.before
  · rw [haccepted, hheld, hended]
    exact hs.after
  · rw [haccepted]
    intro h
    obtain ⟨c, hc, hserved⟩ := hs.served h
    exact ⟨c, List.mem_append_left _ hc, hserved⟩

/-- A request other than a receive, made with its flag. -/
theorem asked {t : RlLink} (hs : s.Receives) {r : Request} (hbuffer : r.buffer? = none)
    (hrequests : t.requests = r ::ₘ s.requests) (hcqes : t.cqes = s.cqes)
    (hclientfd : t.clientfd = s.clientfd)
    (harena : s.posted (· = .arena) + (if decide (r = .arena) then 1 else 0) =
      t.flagArena.toNat)
    (hsocket : s.posted (· = .socket) + (if decide (r = .socket) then 1 else 0) =
      t.flagSocket.toNat)
    (haccept : s.posted Request.isAccept + (if r.isAccept then 1 else 0) =
      t.flagBindListen.toNat)
    (hready : t.flagBindListen = true → t.arena = true) : t.Receives := by
  have hposted := posted_of_requests hrequests hcqes
  have hheld : held Request.buffer? t.requests = held Request.buffer? s.requests := by
    rw [hrequests, held_cons_none hbuffer]
  have haccepted : t.accepted = s.accepted := by simp only [accepted, hcqes]
  have hended : t.ended = s.ended := by simp only [ended, hcqes]
  constructor
  · rw [hposted, harena]
  · rw [hposted, hsocket]
  · rw [hposted, haccept]
  · exact hready
  · rw [Exclusive, hheld]
    exact hs.buffers
  · intro fd index h
    rw [hrequests] at h
    rw [hclientfd]
    rcases Multiset.mem_cons.mp h with rfl | h
    · cases hbuffer
    · exact hs.client fd index h
  · rw [haccepted, hheld, hended, hclientfd]
    exact hs.before
  · rw [haccepted, hheld, hended]
    exact hs.after
  · rw [haccepted, hcqes, hclientfd]
    exact hs.served

/-- A request that is neither for a client nor a receive. -/
theorem more {t : RlLink} (hs : s.Receives) {r : Request} (hbuffer : r.buffer? = none)
    (harena : r ≠ .arena) (hsocket : r ≠ .socket) (haccept : r.isAccept = false)
    (hrequests : t.requests = r ::ₘ s.requests) (hcqes : t.cqes = s.cqes)
    (hclientfd : t.clientfd = s.clientfd) (hgranted : t.arena = s.arena)
    (hflags : t.flagArena = s.flagArena ∧ t.flagSocket = s.flagSocket ∧
      t.flagBindListen = s.flagBindListen) : t.Receives := by
  obtain ⟨hflagArena, hflagSocket, hflagBindListen⟩ := hflags
  refine hs.asked hbuffer hrequests hcqes hclientfd ?_ ?_ ?_ ?_
  · rw [hs.arena, if_neg (by simpa using harena), hflagArena, Nat.add_zero]
  · rw [hs.socket, if_neg (by simpa using hsocket), hflagSocket, Nat.add_zero]
  · rw [hs.accept, haccept, if_neg Bool.false_ne_true, hflagBindListen, Nat.add_zero]
  · rw [hflagBindListen, hgranted]
    exact hs.ready

/-- The client is there: every buffer gets its receive. -/
theorem acceptCb (hs : s.Receives) {fd res : Int} (hmem : Request.accept fd ∈ s.inflight) :
    (ringleaderTcpAcceptCb (s.complete (.accept fd res)) res).Receives := by
  have hnone : s.accepted = false := not_completed hs.once.2.2 hmem rfl
  obtain ⟨hreceiving, hended, -⟩ := hs.before hnone
  have hcompleted : (s.complete (.accept fd res)).requests = s.requests.erase (.accept fd) :=
    requests_complete hmem
  obtain ⟨preps, inflight, refused, heq, hsum, -⟩ :=
    acceptCb_spec (s.complete (.accept fd res)) res
  have hrequests : inflight + refused =
      (recvRequests res : Multiset Request) + s.requests.erase (.accept fd) := by
    rw [hsum, hcompleted]
  have hrest : held Request.buffer? (s.requests.erase (.accept fd)) = 0 := by
    rw [held_erase_none (mem_requests hmem) rfl]
    exact hreceiving
  have hheld : held Request.buffer? (inflight + refused) =
      (List.finRange mavlinkRecvPacketDepth : List _) := by
    rw [hrequests, held_add, hrest, Multiset.add_zero, held_recvRequests]
  have hcount (p : Request → Bool) (hp : ∀ index, p (.recv res index) = false) :
      (ringleaderTcpAcceptCb (s.complete (.accept fd res)) res).posted p = s.posted p := by
    have hzero : (recvRequests res : Multiset Request).countP (p ·) = 0 := by
      rw [Multiset.countP_eq_zero]
      intro r hr
      obtain ⟨index, -, rfl⟩ := List.mem_map.mp (Multiset.mem_coe.mp hr)
      rw [hp index]
      exact Bool.false_ne_true
    rw [← (posted_complete hmem p : (s.complete (.accept fd res)).posted p = _), heq]
    change (inflight + refused).countP _ + _ = _
    rw [hrequests, Multiset.countP_add, hzero, Nat.zero_add, posted, hcompleted]
  have haccepted : (s.complete (.accept fd res)).accepted = true := by
    rw [accepted_complete]
    exact Bool.or_true _
  constructor
  · rw [hcount _ (fun _ => rfl), hs.arena, heq]
    rfl
  · rw [hcount _ (fun _ => rfl), hs.socket, heq]
    rfl
  · rw [hcount _ (fun _ => rfl), hs.accept, heq]
    rfl
  · rw [heq]
    exact hs.ready
  · rw [heq]
    change (held _ (inflight + refused)).Nodup
    rw [hheld]
    exact Multiset.coe_nodup.mpr (List.nodup_finRange _)
  · rw [heq]
    intro fd' index h
    change _ ∈ inflight + refused at h
    rw [hrequests] at h
    rcases Multiset.mem_add.mp h with h | h
    · obtain ⟨index', -, hindex⟩ := List.mem_map.mp (Multiset.mem_coe.mp h)
      cases hindex
      rfl
    · have hin : index ∈ held Request.buffer? (s.requests.erase (.accept fd)) :=
        mem_held.mpr ⟨_, h, rfl⟩
      rw [hrest] at hin
      cases hin
  · rw [heq]
    intro h
    exact absurd (haccepted.symm.trans h) (by decide)
  · rw [heq]
    intro _
    have hstill : (s.complete (.accept fd res)).ended = s.ended :=
      ended_complete s (.accept fd res)
    change (held _ (inflight + refused)).card + (s.complete (.accept fd res)).ended = _
    rw [hheld, hstill, hended, Multiset.coe_card, List.length_finRange, Nat.add_zero]
  · rw [heq]
    intro _
    exact ⟨_, List.mem_append_right _ List.mem_cons_self, fd, rfl⟩

/-- A receive completes: with a packet it is asked for again, with nothing it has ended. -/
theorem recvCompletion (hs : s.Receives) {fd : Int} {index : Fin mavlinkRecvPacketDepth}
    {packet : Option RlPacket} (hmem : Request.recv fd index ∈ s.inflight) :
    (ringleaderTcpRecvCompletion (s.complete (.recv fd index packet)) index packet).Receives := by
  have haccepted : s.accepted = true := by
    by_contra hnone
    have hzero := (hs.before (Bool.eq_false_iff.mpr hnone)).1
    have hin : index ∈ held Request.buffer? s.requests :=
      mem_held.mpr ⟨_, mem_requests hmem, rfl⟩
    rw [hzero] at hin
    cases hin
  have hsame : (s.complete (.recv fd index packet)).accepted = true := by
    rw [accepted_complete, haccepted, Bool.true_or]
  have hcard := hs.after haccepted
  have hserved : ∃ cqe ∈ s.cqes ++ [.recv fd index packet], ∃ fd, cqe = .accept fd s.clientfd := by
    obtain ⟨c, hc, hc'⟩ := hs.served haccepted
    exact ⟨c, List.mem_append_left _ hc, hc'⟩
  have hrequests : (s.complete (.recv fd index packet)).requests =
      s.requests.erase (.recv fd index) := requests_complete hmem
  cases packet with
  | none =>
      have hreleased : index ::ₘ held Request.buffer?
          (s.complete (.recv fd index none)).requests = held Request.buffer? s.requests := by
        rw [hrequests]
        exact held_erase_some (mem_requests hmem) rfl
      constructor
      · rw [ringleaderTcpRecvCompletion, posted_complete hmem, hs.arena]
        rfl
      · rw [ringleaderTcpRecvCompletion, posted_complete hmem, hs.socket]
        rfl
      · rw [ringleaderTcpRecvCompletion, posted_complete hmem, hs.accept]
        rfl
      · exact hs.ready
      · rw [ringleaderTcpRecvCompletion, hrequests]
        exact hs.buffers.complete _
      · intro fd' index' h
        rw [ringleaderTcpRecvCompletion, hrequests] at h
        exact hs.client fd' index' (Multiset.mem_of_mem_erase h)
      · intro h
        exact absurd (hsame.symm.trans h) (by decide)
      · intro _
        rw [← hreleased, Multiset.card_cons] at hcard
        rw [ringleaderTcpRecvCompletion, ended_complete]
        change _ + (s.ended + 1) = _
        omega
      · exact fun _ => hserved
  | some packet =>
      have hagain : (ringleaderTcpRecvCompletion (s.complete (.recv fd index (some packet))) index
          (some packet)).requests =
            .recv s.clientfd index ::ₘ s.requests.erase (.recv fd index) := by
        rw [← hrequests]
        exact requests_prep ((s.complete _).onRing (.recv packet)) _
      have hheld : held Request.buffer? (ringleaderTcpRecvCompletion
          (s.complete (.recv fd index (some packet))) index (some packet)).requests =
            held Request.buffer? s.requests := by
        rw [hagain]
        exact held_repost (mem_requests hmem) rfl
      have hposted (p : Request → Bool) (hp : p (.recv s.clientfd index) = false) :
          (ringleaderTcpRecvCompletion (s.complete (.recv fd index (some packet))) index
            (some packet)).posted p = s.posted p := by
        have hmade := posted_of_requests (hagain.trans (congrArg _ hrequests.symm)) rfl p
        rw [hmade, posted_complete hmem, hp, if_neg Bool.false_ne_true, Nat.add_zero]
      constructor
      · rw [hposted _ rfl, hs.arena]
        rfl
      · rw [hposted _ rfl, hs.socket]
        rfl
      · rw [hposted _ rfl, hs.accept]
        rfl
      · exact hs.ready
      · rw [Exclusive, hheld]
        exact hs.buffers
      · intro fd' index' h
        rw [hagain] at h
        rcases Multiset.mem_cons.mp h with h | h
        · cases h
          rfl
        · exact hs.client fd' index' (Multiset.mem_of_mem_erase h)
      · intro h
        exact absurd (hsame.symm.trans h) (by decide)
      · intro _
        have hstill : (s.complete (.recv fd index (some packet))).ended = s.ended :=
          ended_complete s _
        rw [hheld]
        change _ + (s.complete (.recv fd index (some packet))).ended = _
        rw [hstill]
        exact hcard
      · exact fun _ => hserved

theorem runCallback {t : RlLink} (hs : s.Receives) (hmem : cqe.request ∈ s.inflight)
    (h : runCallback (s.complete cqe) cqe = .ok t) : t.Receives := by
  cases cqe with
  | arena err =>
      have hquiet := hs.quiet hmem rfl rfl rfl
      simp only [SecureGateway.runCallback, ringleaderTcpRecvArenaCb] at h
      split at h
      · cases h
        exact { hquiet with ready := fun _ => rfl }
      · cases h
  | socket res =>
      cases h
      have hquiet := hs.quiet hmem rfl rfl rfl
      exact { hquiet with }
  | accept fd res =>
      cases h
      exact hs.acceptCb hmem
  | recv fd index packet =>
      cases h
      exact hs.recvCompletion hmem
  | sendArena record err =>
      have hquiet := hs.quiet hmem rfl rfl rfl
      simp only [SecureGateway.runCallback, ringleaderTcpSendArenaCb] at h
      split at h
      · cases h
      · split at h
        · cases h
          exact hquiet.more (r := .send s.clientfd record) rfl (by simp) (by simp) rfl
            (requests_prep (s.complete (.sendArena record err)) _) rfl rfl rfl ⟨rfl, rfl, rfl⟩
        · cases h
          exact { hquiet with }
  | send fd record =>
      have hquiet := hs.quiet hmem rfl rfl rfl
      simp only [SecureGateway.runCallback, ringleaderTcpSendCb] at h
      split at h
      · cases h
      · cases h
        exact { hquiet with }

theorem newRecord (hs : s.Receives) (buffer : List UInt8) (requested : ErrT) :
    (s.newRecord buffer requested).Receives := by
  unfold RlLink.newRecord
  dsimp only
  split
  · exact hs.more (r := .sendArena s.routed.length) rfl (by simp) (by simp) rfl
      (requests_post s _) rfl rfl rfl ⟨rfl, rfl, rfl⟩
  · exact { hs with }

theorem askArena (hs : s.Receives) (hflag : s.flagArena = false) :
    { s.prep .arena with flagArena := true : RlLink }.Receives := by
  refine hs.asked (r := .arena) rfl (requests_prep s _) rfl rfl ?_ ?_ ?_ ?_
  · rw [hs.arena, hflag]
    rfl
  · rw [hs.socket]
    rfl
  · rw [hs.accept]
    rfl
  · exact hs.ready

theorem askSocket (hs : s.Receives) (hflag : s.flagSocket = false) :
    { s.prep .socket with flagSocket := true : RlLink }.Receives := by
  refine hs.asked (r := .socket) rfl (requests_prep s _) rfl rfl ?_ ?_ ?_ ?_
  · rw [hs.arena]
    rfl
  · rw [hs.socket, hflag]
    rfl
  · rw [hs.accept]
    rfl
  · exact hs.ready

theorem askClient (hs : s.Receives) (harena : s.arena = true)
    (hflag : s.flagBindListen = false) :
    { s.prep (.accept s.sockfd) with flagBindListen := true : RlLink }.Receives := by
  refine hs.asked (r := .accept s.sockfd) rfl (requests_prep s _) rfl rfl ?_ ?_ ?_ ?_
  · rw [hs.arena]
    rfl
  · rw [hs.socket]
    rfl
  · rw [hs.accept, hflag]
    rfl
  · exact fun _ => harena

end RlLink.Receives

theorem receives_invariant : LinkInvariant RlLink.Receives where
  consume _ _ _ hs hmem h := hs.runCallback hmem h
  askArena _ hs hflag := hs.askArena hflag
  askSocket _ hs hflag := hs.askSocket hflag
  askClient _ hs harena hflag := hs.askClient harena hflag
  record _ buffer requested hs _ := hs.newRecord buffer requested
  poll _ hs := ⟨{ hs with }, { hs with }⟩

theorem receives_start (ready : Nat → UInt8) (queue : Nat → Bool) :
    (hookRingleaderTcp ready queue).Receives where
  arena := rfl
  socket := rfl
  accept := rfl
  ready h := by cases h
  buffers := Multiset.nodup_zero
  client _ _ h := by cases h
  before _ := ⟨rfl, rfl, rfl⟩
  after h := by cases h
  served h := by cases h

/-! ### What a callback does -/

/-- The packet a receive completed with. -/
def Cqe.packet? : Cqe → Option RlPacket
  | recv _ _ packet => packet
  | _ => none

/-- What the callback of a completion leaves of the connection, but for its records. -/
structure RlLink.Called (s : RlLink) (cqe : Cqe) (t : RlLink) : Prop where
  cqes : t.cqes = s.cqes ++ [cqe]
  routed : t.routed = s.routed
  clientfd : cqe.request.isAccept = false → t.clientfd = s.clientfd
  receiving : cqe.request.isAccept = false → t.receiving ≤ s.receiving
  silent : cqe.packet? = none → t.ready = s.ready ∧ t.ringCalls = s.ringCalls
  received : ∀ packet, cqe.packet? = some packet →
    t.ready = (s.onRing (.recv packet)).ready ∧
      t.ringCalls = (s.onRing (.recv packet)).ringCalls

theorem receiving_prep_le {s : RlLink} {r : Request} (h : r.buffer? = none) :
    (s.prep r).receiving ≤ s.receiving :=
  (Multiset.filterMap_le_filterMap _ (s.inflight_prep_le r)).trans (held_cons_none h).le

theorem runCallback_called {s t : RlLink} {cqe : Cqe} (hmem : cqe.request ∈ s.inflight)
    (h : runCallback (s.complete cqe) cqe = .ok t) : s.Called cqe t := by
  have hless : (s.complete cqe).receiving ≤ s.receiving :=
    Multiset.filterMap_le_filterMap _ (Multiset.erase_le _ _)
  cases cqe with
  | arena err =>
      simp only [runCallback, ringleaderTcpRecvArenaCb] at h
      split at h
      · cases h
        exact ⟨rfl, rfl, fun _ => rfl, fun _ => hless, fun _ => ⟨rfl, rfl⟩, nofun⟩
      · cases h
  | socket res =>
      cases h
      exact ⟨rfl, rfl, fun _ => rfl, fun _ => hless, fun _ => ⟨rfl, rfl⟩, nofun⟩
  | accept fd res =>
      obtain ⟨preps, inflight, refused, heq, -, -⟩ :=
        RlLink.acceptCb_spec (s.complete (.accept fd res)) res
      rw [runCallback, heq] at h
      cases h
      exact ⟨rfl, rfl, nofun, nofun, fun _ => ⟨rfl, rfl⟩, nofun⟩
  | recv fd index packet =>
      cases h
      cases packet with
      | none => exact ⟨rfl, rfl, fun _ => rfl, fun _ => hless, fun _ => ⟨rfl, rfl⟩, nofun⟩
      | some packet =>
          refine ⟨rfl, rfl, fun _ => rfl, fun _ => ?_, nofun, ?_⟩
          · have hsame : held Request.buffer? (.recv s.clientfd index ::ₘ
                s.inflight.erase (.recv fd index)) = s.receiving := held_repost hmem rfl
            exact (Multiset.filterMap_le_filterMap _
              (((s.complete _).onRing (.recv packet)).inflight_prep_le _)).trans hsame.le
          · rintro packet' ⟨⟩
            exact ⟨rfl, rfl⟩
  | sendArena record err =>
      simp only [runCallback, ringleaderTcpSendArenaCb] at h
      split at h
      · cases h
      · split at h
        · cases h
          exact ⟨rfl, rfl, fun _ => rfl, fun _ => (receiving_prep_le rfl).trans hless,
            fun _ => ⟨rfl, rfl⟩, nofun⟩
        · cases h
          exact ⟨rfl, rfl, fun _ => rfl, fun _ => hless, fun _ => ⟨rfl, rfl⟩, nofun⟩
  | send fd record =>
      simp only [runCallback, ringleaderTcpSendCb] at h
      split at h
      · cases h
      · cases h
        exact ⟨rfl, rfl, fun _ => rfl, fun _ => hless, fun _ => ⟨rfl, rfl⟩, nofun⟩

/-! ### Receives over whole runs -/

/-- Once the client is there it stays the only one, and a buffer whose receive ended or was
refused gets no other. -/
structure RlLink.After (start s : RlLink) : Prop extends s.Receives where
  accepted : s.accepted = true
  clientfd : s.clientfd = start.clientfd
  receiving : s.receiving ≤ start.receiving

theorem after_invariant (start : RlLink) : LinkInvariant (RlLink.After start) where
  consume s cqe t hs hmem h := by
    have hcalled := runCallback_called hmem h
    have hno : cqe.request.isAccept = false := by
      by_contra hyes
      have hnot := RlLink.not_completed hs.toReceives.once.2.2 hmem
        (Bool.eq_true_of_not_eq_false hyes)
      exact absurd (hs.accepted.symm.trans hnot) (by decide)
    have haccepted : t.accepted = true := by
      have hstill := hs.accepted
      rw [RlLink.accepted] at hstill ⊢
      rw [hcalled.cqes, List.any_append, hstill, Bool.true_or]
    exact ⟨hs.toReceives.runCallback hmem h, haccepted, (hcalled.clientfd hno).trans hs.clientfd,
      (hcalled.receiving hno).trans hs.receiving⟩
  askArena s hs hflag :=
    ⟨hs.toReceives.askArena hflag, hs.accepted, hs.clientfd,
      (receiving_prep_le rfl).trans hs.receiving⟩
  askSocket s hs hflag :=
    ⟨hs.toReceives.askSocket hflag, hs.accepted, hs.clientfd,
      (receiving_prep_le rfl).trans hs.receiving⟩
  askClient s hs harena hflag :=
    ⟨hs.toReceives.askClient harena hflag, hs.accepted, hs.clientfd,
      (receiving_prep_le rfl).trans hs.receiving⟩
  record s buffer requested hs _ := by
    have ht := hs.toReceives.newRecord buffer requested
    cases hok : decide (requested = .ok) with
    | true =>
        rw [RlLink.newRecord, if_pos (of_decide_eq_true hok)] at ht ⊢
        exact ⟨ht, hs.accepted, hs.clientfd, (held_cons_none rfl).le.trans hs.receiving⟩
    | false =>
        rw [RlLink.newRecord, if_neg (of_decide_eq_false hok)] at ht ⊢
        exact ⟨ht, hs.accepted, hs.clientfd, hs.receiving⟩
  poll s hs :=
    ⟨⟨{ hs.toReceives with }, hs.accepted, hs.clientfd, hs.receiving⟩,
      ⟨{ hs.toReceives with }, hs.accepted, hs.clientfd, hs.receiving⟩⟩

/-- The completion of a receive arena says that there is one. -/
def Cqe.Grants : Cqe → Prop
  | arena err => err = .ok
  | _ => True

/-- Only a refused arena is used where there is none. -/
theorem consumeCqe_granted (s : RlLink) {cqe : Cqe} (hgrants : cqe.Grants) :
    consumeCqe s cqe ≠ .error .nullArena := by
  unfold consumeCqe
  split
  · cases cqe with
    | arena err =>
        obtain rfl : err = .ok := hgrants
        simp [runCallback, ringleaderTcpRecvArenaCb]
    | socket res => simp [runCallback]
    | accept fd res => simp [runCallback]
    | recv fd index packet => simp [runCallback]
    | sendArena record err =>
        simp only [runCallback, ringleaderTcpSendArenaCb]
        split
        · simp
        · split <;> simp
    | send fd record =>
        simp only [runCallback, ringleaderTcpSendCb]
        split <;> simp
  · simp

/-- Whatever completions the kernel posts and in whatever order, whatever requests the
submission queue refuses and whatever the pipeline calls: arena, socket and client are asked
for at most once; no two receives in flight share a buffer, and each is for the client that was
accepted; with a client, every buffer has its receive in flight, or its receive was refused or
ended. From then on neither the client nor the buffers given up ever come back. A run uses no
arena that is not there unless the kernel refused the one asked for. -/
theorem ringleader_receives (codec : MavlinkCodec) (ready : Nat → UInt8) (queue : Nat → Bool)
    (calls : List RlLinkCall) :
    ((∀ call ∈ calls, ∀ cqe ∈ call.cqes, cqe.Grants) →
      runLink codec (hookRingleaderTcp ready queue) calls ≠ .error .nullArena) ∧
    ∀ s, runLink codec (hookRingleaderTcp ready queue) calls = .ok s →
      (s.posted (· = .arena) ≤ 1 ∧ s.posted (· = .socket) ≤ 1 ∧
        s.posted Request.isAccept ≤ 1) ∧
      s.receiving.Nodup ∧
      (∀ fd index, .recv fd index ∈ s.inflight →
        fd = s.clientfd ∧ ∃ cqe ∈ s.cqes, ∃ listenfd, cqe = .accept listenfd fd) ∧
      (s.accepted = true →
        s.receiving.card + s.stranded.card + s.ended = mavlinkRecvPacketDepth ∧
        (s.receiving + s.stranded).Nodup ∧
        ∀ more t, runLink codec s more = .ok t →
          t.clientfd = s.clientfd ∧ t.receiving ≤ s.receiving) := by
  constructor
  · intro hgrants
    refine receives_invariant.run_ne_error ?_ (receives_start ready queue)
    intro call hcall u cqe hcqe _
    exact consumeCqe_granted u (hgrants call hcall cqe hcqe)
  intro s h
  have hs := receives_invariant.run (receives_start ready queue) h
  have hall : held Request.buffer? s.requests = s.receiving + s.stranded := held_add _
  have hnodup := hs.buffers
  rw [Exclusive, hall] at hnodup
  refine ⟨hs.once, Multiset.nodup_of_le (Multiset.le_add_right _ _) hnodup, ?_, ?_⟩
  · intro fd index hmem
    have hfd := hs.client fd index (RlLink.mem_requests hmem)
    subst hfd
    refine ⟨rfl, hs.served ?_⟩
    by_contra hnone
    have hin : index ∈ held Request.buffer? s.requests :=
      mem_held.mpr ⟨_, RlLink.mem_requests hmem, rfl⟩
    rw [(hs.before (Bool.eq_false_iff.mpr hnone)).1] at hin
    cases hin
  · intro haccepted
    have hcard := hs.after haccepted
    rw [hall, Multiset.card_add] at hcard
    refine ⟨hcard, hnodup, ?_⟩
    intro more t hmore
    have ht := (after_invariant s).run ⟨hs, haccepted, rfl, le_rfl⟩ hmore
    exact ⟨ht.clientfd, ht.receiving⟩

/-- A client connects, sends a byte and is sent a message; then one receive ends. -/
def clientCalls : List RlLinkCall :=
  [.init ⟨true, []⟩, .init ⟨true, [.arena .ok, .socket 5]⟩, .hasMore ⟨true, [.accept 5 7]⟩,
    .hasMore ⟨true, [.recv 7 ⟨0, by decide⟩ (some ⟨[42], by decide⟩)]⟩,
    .routeTo .zero ⟨⟨true, []⟩, true, .ok, ⟨true, [.sendArena 0 .ok]⟩⟩,
    .hasMore ⟨true, [.send 7 0, .recv 7 ⟨3, by decide⟩ none]⟩]

/-- The fifth request the queue is handed is the second receive: it is refused. -/
def clientQueue (n : Nat) : Bool := decide (n ≠ 4)

def clientLink : RlLink :=
  match runLink wireCodec (hookRingleaderTcp (fun _ => 0) clientQueue) clientCalls with
  | .ok s => s
  | .error _ => hookRingleaderTcp (fun _ => 0) clientQueue

theorem clientCalls_run :
    runLink wireCodec (hookRingleaderTcp (fun _ => 0) clientQueue) clientCalls =
      .ok clientLink := rfl

/-- Fourteen of the sixteen buffers have their receive, one is stranded. -/
theorem ringleader_receives_client :
    runLink wireCodec (hookRingleaderTcp (fun _ => 0) clientQueue) clientCalls ≠
        .error .nullArena ∧
      clientLink.receiving.Nodup ∧
      clientLink.receiving.card + clientLink.stranded.card + clientLink.ended = 16 ∧
      clientLink.stranded.card = 1 ∧ clientLink.ended = 1 := by
  obtain ⟨hsafe, hall⟩ := ringleader_receives wireCodec (fun _ => 0) clientQueue clientCalls
  obtain ⟨-, hnodup, -, hafter⟩ := hall clientLink clientCalls_run
  refine ⟨hsafe (by simp [clientCalls, RlLinkCall.cqes, Cqe.Grants]), ?_⟩
  exact ⟨hnodup, (hafter (by decide +kernel)).1, by decide +kernel, by decide +kernel⟩

end SecureGateway
