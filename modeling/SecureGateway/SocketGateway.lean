import SecureGateway.Links
import SecureGateway.SocketSource
import SecureGateway.TcpDrain

/-!
# The gateway over threaded sockets

The threaded TCP, outgoing TCP and UDP connections as links of the gateway, with their
reader threads running between the accesses of the pipeline. Every byte a reader thread
received reaches the parser of its slot once and in order, and every message a sink was
handed is offered to its connection as one whole frame, or dropped.

## Implementation notes

The three adapters share their loop and their callbacks; what they differ in is a
`SocketKind`. What the reader does before each access is a schedule the link holds; a
step it cannot take is skipped. To take the lock the pipeline waits for the reader to
let go of it. Which operand of the comparison is loaded first is left open.
-/

namespace SecureGateway

open Library

/-- What the three adapters differ in: the transport of the server, the state of the
link once the connection object is initialized, whether a route operation finds it
connected, and whom it sends to. -/
structure SocketKind where
  L : Type
  C : Type
  S : Type
  P : Type
  transport : Transport L C S
  initial : L
  connected : L → Bool
  peer : L → P

/-- `source_tcp.c` with threads. -/
def tcpKind : SocketKind where
  L := TcpLink
  C := Int
  S := Unit
  P := Int
  transport := tcpTransport
  initial := ⟨-1⟩
  connected link := link.connection != -1
  peer link := link.connection

/-- `source_tcpout.c`. -/
def tcpoutKind : SocketKind where
  L := TcpoutLink
  C := Int × Bool
  S := Unit
  P := Int
  transport := tcpoutTransport
  initial := ⟨-1⟩
  connected link := link.fd != -1
  peer link := link.fd

/-- `source_udp.c`; `clt_addr` is whatever was there. -/
def udpKind (A : Type) (addr : A) : SocketKind where
  L := UdpLink A
  C := Empty
  S := A
  P := A
  transport := udpTransport A
  initial := { hasClient := false, cltAddr := addr }
  connected link := link.hasClient
  peer link := link.cltAddr

/-- The steps the reader thread takes. -/
def SocketLabel.isReader {C S : Type} : SocketLabel C S → Bool
  | enter | connect _ | recv _ _ | recvFail | lock | setCurRead | setBufferSize | test | wake =>
      true
  | pollSize | loadCur | loadSize | signal | readByte => false

/-- What the reader does during a call, before each access of the pipeline, and which
operand `has_more` loads first. -/
structure SocketTurn (C S : Type) where
  first : List (SocketLabel C S)
  second : List (SocketLabel C S)
  third : List (SocketLabel C S)
  atLock : List (SocketLabel C S)
  curFirst : Bool

variable {K : SocketKind}

/-- A step, if it can be taken. -/
def perform (transport : Transport K.L K.C K.S) (s : SocketSource K.L)
    (l : SocketLabel K.C K.S) : SocketSource K.L :=
  (socketStep transport s l).getD s

/-- The reader runs. -/
def readerRuns (K : SocketKind) (s : SocketSource K.L) (labels : List (SocketLabel K.C K.S)) :
    SocketSource K.L :=
  (labels.filter SocketLabel.isReader).foldl (perform K.transport) s

/-- The reader runs on until it lets go of the lock. -/
def letGo (K : SocketKind) (s : SocketSource K.L) : SocketSource K.L :=
  match s.reader with
  | .setCur _ =>
      let s := perform K.transport s .setCurRead
      let s := perform K.transport s .setBufferSize
      perform K.transport s .test
  | .setSize _ =>
      let s := perform K.transport s .setBufferSize
      perform K.transport s .test
  | .check => perform K.transport s .test
  | _ => s

/-- `has_more` on an initialized object. -/
def socketHasMore (K : SocketKind) (x : SocketTurn K.C K.S) (s : SocketSource K.L) :
    Int × SocketSource K.L :=
  let s := perform K.transport (readerRuns K s x.first) .pollSize
  let s := perform K.transport (readerRuns K s x.second)
    (if x.curFirst then .loadCur else .loadSize)
  let s := perform K.transport (readerRuns K s x.third)
    (if x.curFirst then .loadSize else .loadCur)
  match s.pipeline with
  | .ready => (1, s)
  | _ => (0, perform K.transport (letGo K (readerRuns K s x.atLock)) .signal)

/-- `read_byte` on an initialized object. -/
def socketReadByte (K : SocketKind) (x : SocketTurn K.C K.S) (s : SocketSource K.L) :
    Int × SocketSource K.L :=
  let s := letGo K (readerRuns K s x.atLock)
  (if s.bufferSize ≤ s.curRead then 0 else (s.buffer s.curRead).toNat,
    perform K.transport s .readByte)

/-- A connection object: initialized or not, what its init routine and its reader thread
will do, and what its route operation offered to the connection. -/
structure SocketLink (K : SocketKind) where
  socket : Option (SocketSource K.L)
  inits : Nat → Option (Nat → UInt8)
  schedule : Nat → SocketTurn K.C K.S
  calls : Nat
  offered : List (Option (K.P × List UInt8))
  aborted : Bool

namespace SocketLink

/-- The object as its hook leaves it. -/
def start (inits : Nat → Option (Nat → UInt8)) (schedule : Nat → SocketTurn K.C K.S) :
    SocketLink K where
  socket := none
  inits := inits
  schedule := schedule
  calls := 0
  offered := []
  aborted := false

/-- `if (!initialized) init(...)`; an attempt gives the array of the object or fails. -/
def ready (a : SocketLink K) : Option (SocketSource K.L) :=
  match a.socket with
  | some s => some s
  | none => (a.inits a.calls).map fun buffer => .start K.initial buffer

def hasMore (a : SocketLink K) : Int × SocketLink K :=
  match a.ready with
  | none => (0, { a with calls := a.calls + 1 })
  | some s =>
      let r := socketHasMore K (a.schedule a.calls) s
      (r.1, { a with socket := some r.2, calls := a.calls + 1 })

/-- `ASSERT(initialized)`, except for UDP, where the object is read as it is. -/
def readByte (a : SocketLink K) : Int × SocketLink K :=
  match a.socket with
  | none => (0, { a with calls := a.calls + 1, aborted := true })
  | some s =>
      let r := socketReadByte K (a.schedule a.calls) s
      (r.1, { a with socket := some r.2, calls := a.calls + 1 })

/-- The route operations: whether there is a peer is tested before the message is encoded,
and whom it goes to is read when it is sent. -/
def routeTo (codec : MavlinkCodec) (msg : MavlinkMessage) (a : SocketLink K) : SocketLink K :=
  match a.ready with
  | none => { a with calls := a.calls + 1, offered := a.offered ++ [none] }
  | some s =>
      let x := a.schedule a.calls
      let s := readerRuns K s x.first
      if K.connected s.link then
        let frame := codec.msgToSendBuffer msg
        let s := readerRuns K s x.second
        { a with
          socket := some s
          calls := a.calls + 1
          offered := a.offered ++ [some (K.peer s.link, frame)] }
      else
        { a with socket := some s, calls := a.calls + 1, offered := a.offered ++ [none] }

def ops (codec : MavlinkCodec) : LinkOps (SocketLink K) where
  hasMore := hasMore
  readByte := readByte
  route := routeTo codec

end SocketLink

/-! ### The reader beside a call -/

theorem SocketInv.perform {s : SocketSource K.L} (hs : SocketInv s) (l : SocketLabel K.C K.S) :
    SocketInv (perform K.transport s l) := by
  unfold SecureGateway.perform
  cases h : socketStep K.transport s l with
  | none => exact hs
  | some t => exact hs.step h

/-- A step of the reader leaves the pipeline where it is and returns no byte. -/
theorem perform_reader {l : SocketLabel K.C K.S} (hl : l.isReader) (s : SocketSource K.L) :
    (perform K.transport s l).pipeline = s.pipeline ∧
      (perform K.transport s l).returned = s.returned := by
  unfold perform
  cases l with
  | pollSize | loadCur | loadSize | signal | readByte => cases hl
  | lock | setCurRead | setBufferSize =>
      simp only [socketStep]
      split <;> exact ⟨rfl, rfl⟩
  | enter | connect _ | recv _ _ | recvFail | test | wake =>
      simp only [socketStep]
      split <;> exact ⟨rfl, rfl⟩

/-- What the reader leaves alone while the pipeline waits or moves on. -/
structure ReaderOnly {L : Type} (s t : SocketSource L) : Prop where
  inv : SocketInv t
  pipeline : t.pipeline = s.pipeline
  returned : t.returned = s.returned

theorem ReaderOnly.perform {s t : SocketSource K.L} (h : ReaderOnly s t)
    {l : SocketLabel K.C K.S} (hl : l.isReader) :
    ReaderOnly s (SecureGateway.perform K.transport t l) := by
  obtain ⟨hpipeline, hreturned⟩ := perform_reader hl t
  exact ⟨h.inv.perform l, hpipeline.trans h.pipeline, hreturned.trans h.returned⟩

theorem readerRuns_readerOnly {s : SocketSource K.L} (hs : SocketInv s)
    (labels : List (SocketLabel K.C K.S)) : ReaderOnly s (readerRuns K s labels) := by
  refine List.foldlRecOn _ _ ⟨hs, rfl, rfl⟩ ?_
  intro t ht l hl
  exact ht.perform (List.mem_filter.mp hl).2

/-- The reader lets go of the lock within three steps. -/
theorem letGo_readerOnly {s : SocketSource K.L} (hs : SocketInv s) :
    ReaderOnly s (letGo K s) ∧ (letGo K s).reader.lockFree := by
  have hself : ReaderOnly s s := ⟨hs, rfl, rfl⟩
  unfold letGo
  cases hreader : s.reader with
  | top | receiving | received n | waiting => exact ⟨hself, by simp [hreader, ServerPc.lockFree]⟩
  | setCur n =>
      refine ⟨((hself.perform rfl).perform rfl).perform rfl, ?_⟩
      simp only [perform, socketStep, hreader, Option.getD_some, if_true]
      split <;> rfl
  | setSize n =>
      refine ⟨(hself.perform rfl).perform rfl, ?_⟩
      simp only [perform, socketStep, hreader, Option.getD_some, if_true]
      split <;> rfl
  | check =>
      refine ⟨hself.perform rfl, ?_⟩
      simp only [perform, socketStep, hreader, if_true, Option.getD_some]
      split <;> rfl

/-! ### What the calls do -/

/-- Only `read_byte` returns a byte. -/
theorem perform_returned {l : SocketLabel K.C K.S} (hl : l ≠ .readByte) (s : SocketSource K.L) :
    (perform K.transport s l).returned = s.returned := by
  unfold perform
  cases l with
  | readByte => exact absurd rfl hl
  | enter | connect _ | recv _ _ | recvFail | test | wake | lock | setCurRead | setBufferSize =>
      exact (perform_reader rfl s).2
  | pollSize =>
      simp only [socketStep]
      split <;> rfl
  | loadCur | loadSize =>
      simp only [socketStep]
      split <;> rfl
  | signal =>
      simp only [socketStep]
      split
      · split <;> rfl
      · rfl

/-- The comparison of `has_more`, whichever operand is loaded first, ends ready to read or on
the way to the lock. -/
theorem comparison_ends {s : SocketSource K.L}
    (hs : s.pipeline = .comparing none none ∨ s.pipeline = .signalling) (curFirst : Bool)
    (labels : List (SocketLabel K.C K.S)) (hinv : SocketInv s) :
    let t := perform K.transport s (if curFirst then .loadCur else .loadSize)
    let u := perform K.transport (readerRuns K t labels)
      (if curFirst then .loadSize else .loadCur)
    u.pipeline = .ready ∨ u.pipeline = .signalling := by
  intro t u
  have hpipeline : (readerRuns K t labels).pipeline = t.pipeline :=
    (readerRuns_readerOnly (hinv.perform _) labels).pipeline
  rcases hs with hs | hs
  · cases curFirst with
    | true =>
        have ht : t.pipeline = .comparing (some s.curRead) none := by
          simp [t, perform, socketStep, hs, afterLoad]
        simp only [u, perform, socketStep, hpipeline, ht, if_true, Option.getD_some, afterLoad]
        split
        · exact Or.inl rfl
        · exact Or.inr rfl
    | false =>
        have ht : t.pipeline = .comparing none (some s.bufferSize) := by
          simp [t, perform, socketStep, hs, afterLoad]
        simp only [u, perform, socketStep, hpipeline, ht, Bool.false_eq_true, if_false,
          Option.getD_some, afterLoad]
        split
        · exact Or.inl rfl
        · exact Or.inr rfl
  · have ht : t.pipeline = .signalling := by
      cases curFirst <;> simp [t, perform, socketStep, hs]
    right
    cases curFirst <;> simp [u, perform, socketStep, hpipeline, ht]

/-- `has_more` leaves the pipeline ready to read exactly when it says so. -/
theorem socketHasMore_spec {s : SocketSource K.L} (hs : SocketInv s)
    (hidle : s.pipeline = .idle) (x : SocketTurn K.C K.S) :
    let r := socketHasMore K x s
    SocketInv r.2 ∧ r.2.returned = s.returned ∧
      r.2.pipeline = if r.1 = 0 then .idle else .ready := by
  intro r
  have hfirst := readerRuns_readerOnly hs x.first
  generalize hs₁ : perform K.transport (readerRuns K s x.first) .pollSize = s₁
  have hinv₁ : SocketInv s₁ := hs₁ ▸ hfirst.inv.perform .pollSize
  have hreturned₁ : s₁.returned = s.returned := by
    rw [← hs₁, perform_returned (by simp), hfirst.returned]
  have hpoll : s₁.pipeline = .comparing none none ∨ s₁.pipeline = .signalling := by
    rw [← hs₁]
    simp only [perform, socketStep, hfirst.pipeline, hidle, Option.getD_some]
    split
    · exact Or.inl rfl
    · exact Or.inr rfl
  have hsecond := readerRuns_readerOnly hinv₁ x.second
  rw [← hsecond.pipeline] at hpoll
  have hends := comparison_ends hpoll x.curFirst x.third hsecond.inv
  generalize hs₃ : perform K.transport (readerRuns K (perform K.transport
    (readerRuns K s₁ x.second) (if x.curFirst then .loadCur else .loadSize)) x.third)
    (if x.curFirst then .loadSize else .loadCur) = s₃
  simp only [hs₃] at hends
  have hthird := readerRuns_readerOnly
    (hsecond.inv.perform (if x.curFirst then .loadCur else .loadSize)) x.third
  have hinv₃ : SocketInv s₃ := hs₃ ▸ hthird.inv.perform _
  have hreturned₃ : s₃.returned = s.returned := by
    rw [← hs₃, perform_returned (by cases x.curFirst <;> simp), hthird.returned,
      perform_returned (by cases x.curFirst <;> simp), hsecond.returned, hreturned₁]
  simp only [r, socketHasMore, hs₁, hs₃]
  rcases hends with hends | hends
  · rw [hends]
    exact ⟨hinv₃, hreturned₃, hends⟩
  · rw [hends]
    have hlast := readerRuns_readerOnly hinv₃ x.atLock
    obtain ⟨hgo, hfree⟩ := letGo_readerOnly hlast.inv
    refine ⟨hgo.inv.perform .signal, ?_, ?_⟩
    · rw [perform_returned (by simp), hgo.returned, hlast.returned, hreturned₃]
    · simp [perform, socketStep, hgo.pipeline, hlast.pipeline, hends, hfree]

/-- A byte that `has_more` announced is the next one. -/
theorem socketReadByte_spec {s : SocketSource K.L} (hs : SocketInv s)
    (hready : s.pipeline = .ready) (x : SocketTurn K.C K.S) :
    let r := socketReadByte K x s
    SocketInv r.2 ∧ r.2.returned = s.returned ++ [byteOfInt r.1] ∧ r.2.pipeline = .idle := by
  intro r
  have hrun := readerRuns_readerOnly hs x.atLock
  obtain ⟨hgo, hfree⟩ := letGo_readerOnly hrun.inv
  have hpipeline := hgo.pipeline.trans (hrun.pipeline.trans hready)
  have hreturned := hgo.returned.trans hrun.returned
  refine ⟨hgo.inv.perform .readByte, ?_⟩
  simp only [r, socketReadByte, perform, socketStep, hpipeline, hfree, if_true]
  split
  · simp [hreturned, byteOfInt]
  · simp [hreturned, byteOfInt_toNat]

/-! ### The gateway -/

/-- The socket gave away what its reader thread received, and offered every message it was
handed whole or not at all. -/
structure SocketLink.Kept (codec : MavlinkCodec) (a : SocketLink K) (bytes : List UInt8)
    (msgs : List MavlinkMessage) : Prop where
  unset : a.socket = none → bytes = []
  inv : ∀ s, a.socket = some s → SocketInv s
  returned : ∀ s, a.socket = some s → s.returned = bytes
  idle : ∀ s, a.socket = some s → s.pipeline = .idle
  offered : List.Forall₂ (fun msg o => ∀ x ∈ o, x.2 = codec.msgToSendBuffer msg) msgs a.offered
  running : a.aborted = false

namespace SocketLink.Kept

variable {codec : MavlinkCodec} {a : SocketLink K} {bytes : List UInt8}
  {msgs : List MavlinkMessage}

/-- An object that is initialized, maybe just now, is where a call expects it. -/
theorem ready (ha : a.Kept codec bytes msgs) {s : SocketSource K.L} (h : a.ready = some s) :
    SocketInv s ∧ s.returned = bytes ∧ s.pipeline = .idle := by
  unfold SocketLink.ready at h
  cases hsocket : a.socket with
  | some s' =>
      rw [hsocket] at h
      cases h
      exact ⟨ha.inv s hsocket, ha.returned s hsocket, ha.idle s hsocket⟩
  | none =>
      rw [hsocket] at h
      obtain ⟨buffer, -, rfl⟩ := Option.map_eq_some_iff.mp h
      exact ⟨SocketInv.start K.initial buffer, (ha.unset hsocket).symm, rfl⟩

/-- The socket of a call that left it idle. -/
theorem set (ha : a.Kept codec bytes msgs) {b : SocketLink K} {bytes' : List UInt8}
    {s : SocketSource K.L} (hsocket : b.socket = some s) (hinv : SocketInv s)
    (hreturned : s.returned = bytes') (hidle : s.pipeline = .idle)
    (hoffered : b.offered = a.offered) (haborted : b.aborted = a.aborted) :
    b.Kept codec bytes' msgs := by
  have hsame (t : SocketSource K.L) (ht : b.socket = some t) : t = s :=
    Option.some.inj (ht.symm.trans hsocket)
  constructor
  · intro hnone
    rw [hsocket] at hnone
    cases hnone
  · rintro t ht
    rw [hsame t ht]
    exact hinv
  · rintro t ht
    rw [hsame t ht]
    exact hreturned
  · rintro t ht
    rw [hsame t ht]
    exact hidle
  · rw [hoffered]
    exact ha.offered
  · rw [haborted]
    exact ha.running

/-- One more message, offered whole or not at all. -/
theorem offer (ha : a.Kept codec bytes msgs) {msg : MavlinkMessage}
    {o : Option (K.P × List UInt8)} (ho : ∀ x ∈ o, x.2 = codec.msgToSendBuffer msg) :
    { a with offered := a.offered ++ [o] }.Kept codec bytes (msgs ++ [msg]) :=
  { ha with offered := List.rel_append ha.offered (List.Forall₂.cons ho List.Forall₂.nil) }

end SocketLink.Kept

theorem socketOps_lawful (codec : MavlinkCodec) :
    (SocketLink.ops codec : LinkOps (SocketLink K)).Lawful (SocketLink.Kept codec) where
  silent a bytes msgs ha hnone := by
    simp only [SocketLink.ops, SocketLink.hasMore] at hnone ⊢
    cases hready : a.ready with
    | none => exact { ha with }
    | some s =>
        rw [hready] at hnone
        obtain ⟨hs, hreturned, hidle⟩ := ha.ready hready
        obtain ⟨hinv, hsame, hpipeline⟩ := socketHasMore_spec hs hidle (a.schedule a.calls)
        rw [if_pos hnone] at hpipeline
        exact ha.set rfl hinv (hsame.trans hreturned) hpipeline rfl rfl
  read a bytes msgs ha hsome := by
    simp only [SocketLink.ops, SocketLink.hasMore] at hsome ⊢
    cases hready : a.ready with
    | none =>
        rw [hready] at hsome
        exact absurd rfl hsome
    | some s =>
        rw [hready] at hsome
        obtain ⟨hs, hreturned, hidle⟩ := ha.ready hready
        obtain ⟨hinv, hsame, hpipeline⟩ := socketHasMore_spec hs hidle (a.schedule a.calls)
        rw [if_neg hsome] at hpipeline
        obtain ⟨hinv', hbyte, hidle'⟩ :=
          socketReadByte_spec hinv hpipeline (a.schedule (a.calls + 1))
        rw [hsame, hreturned] at hbyte
        exact ha.set rfl hinv' hbyte hidle' rfl rfl
  route a bytes msgs msg ha := by
    simp only [SocketLink.ops, SocketLink.routeTo]
    cases hready : a.ready with
    | none =>
        have hkept : { a with calls := a.calls + 1 }.Kept codec bytes msgs := { ha with }
        exact hkept.offer fun x hx => by cases hx
    | some s =>
        obtain ⟨hs, hreturned, hidle⟩ := ha.ready hready
        have hfirst := readerRuns_readerOnly hs (a.schedule a.calls).first
        simp only []
        split
        · have hsecond := readerRuns_readerOnly hfirst.inv (a.schedule a.calls).second
          have hkept := ha.set (b := { a with
            socket := some (readerRuns K (readerRuns K s (a.schedule a.calls).first)
              (a.schedule a.calls).second)
            calls := a.calls + 1 }) rfl hsecond.inv
            (hsecond.returned.trans (hfirst.returned.trans hreturned))
            (hsecond.pipeline.trans (hfirst.pipeline.trans hidle)) rfl rfl
          exact hkept.offer fun x hx => by cases hx; rfl
        · have hkept := ha.set (b := { a with
            socket := some (readerRuns K s (a.schedule a.calls).first)
            calls := a.calls + 1 }) rfl hfirst.inv (hfirst.returned.trans hreturned)
            (hfirst.pipeline.trans hidle) rfl rfl
          exact hkept.offer fun x hx => by cases hx

/-- The gateway over threaded sockets, in every run and in every interleaving with the reader
threads: it stops short for want of fuel at most; every message completed is handed to exactly
the sinks its route and the policies call for; the bytes read from a connection are those its
reader thread received, each once and in order; and of every message it was handed a
connection was offered the whole frame or nothing. -/
theorem socket_gateway {ι G T : Type} [DecidableEq ι] (kind : ι → SocketKind)
    (codec : MavlinkCodec)
    {securityPolicyInit : SecurityPolicyMgmt → Except Fault SecurityPolicyMgmt}
    {prior initial p : Pipeline (Links (fun l => SocketLink (kind l)) T)}
    {setup : List (LinkSetup ι T)}
    (hinit : pipelineInit securityPolicyInit prior = .ok initial)
    (hsetup : configure initial
      (setup.map (LinkSetup.op fun _ => SocketLink.ops codec)) = .ok p)
    (hops : p.OpsKeepRouting)
    (hverdict : ∀ policy ∈ p.policies.policies, policy.VerdictIgnoresAttr)
    {env : Env (Links (fun l => SocketLink (kind l)) T) G}
    (hclock : ∀ world, (env.timeUs world).2.link = world.link)
    (inits : ι → Nat → Option (Nat → UInt8))
    (schedule : ∀ l, Nat → SocketTurn (kind l).C (kind l).S) (rest : T) (parser : G)
    (actions : List Action) :
    let world : Links (fun l => SocketLink (kind l)) T :=
      ⟨fun l => .start (inits l) (schedule l), rest⟩
    let r := runActions env (Machine.start p world parser) actions
    let m := finalMachine r
    OnlyFuel r ∧
    (∀ turn ∈ m.log, turn.calls.map Prod.fst = turn.expected p) ∧
    ∀ l, let a := m.world.link l
      (a.socket = none → readFrom (wiring setup) l m.log = []) ∧
      (∀ s, a.socket = some s →
        readFrom (wiring setup) l m.log = s.returned ∧ Delivered s) ∧
      List.Forall₂ (fun msg o => ∀ x ∈ o, x.2 = codec.msgToSendBuffer msg)
        (handedTo (wiring setup) l m.log) a.offered ∧
      a.aborted = false := by
  intro world r m
  have hstart (l : ι) : SocketLink.Kept codec (world.link l) [] [] := by
    refine ⟨fun _ => rfl, ?_, ?_, ?_, List.Forall₂.nil, rfl⟩
    · intro s hs
      cases hs
    · intro s hs
      cases hs
    · intro s hs
      cases hs
  have hkept := ledger_kept (fun l => socketOps_lawful (K := kind l) codec) hinit hsetup hops
    hverdict hclock world hstart parser actions
  refine ⟨hkept.fuel, fun turn hturn => (hkept.inv.log turn hturn).calls, ?_⟩
  intro l a
  have hl := hkept.inv.links l
  refine ⟨hl.unset, ?_, hl.offered, hl.running⟩
  intro s hs
  exact ⟨(hl.returned s hs).symm, (hl.inv s hs).delivered⟩

/-- The vehicle and the legacy components each behind UDP, rejected messages printed. -/
def simSetup : List (LinkSetup Bool Unit) :=
  [.hook SourceType.legacy.id SinkType.legacy.id false,
    .hook SourceType.vmc.id SinkType.vmc.id true,
    .hookStdioSink SinkType.discard.id fun _ rest => rest]

def simPipeline : Pipeline (Links (fun _ : Bool => SocketLink (udpKind Nat 0)) Unit) :=
  match configure (shippedPipeline wireCodec)
      (simSetup.map (LinkSetup.op fun _ => SocketLink.ops wireCodec)) with
  | .ok p => p
  | .error _ => .zero

theorem sim_setup : configure (shippedPipeline wireCodec)
    (simSetup.map (LinkSetup.op fun _ => SocketLink.ops wireCodec)) = .ok simPipeline := rfl

def simEnv :
    Env (Links (fun _ : Bool => SocketLink (udpKind Nat 0)) Unit) (Nat → List UInt8) where
  debug := true
  parser := wireParser
  timeUs world := (0, world)

/-- The reader publishes a datagram of a sender before the first access of call `n`. -/
def datagramAt (n : Nat) (chunk : List UInt8) (sender : Nat) (call : Nat) :
    SocketTurn Empty Nat where
  first :=
    if call = n then
      [.enter, .recv chunk sender, .lock, .setCurRead, .setBufferSize, .test]
    else []
  second := []
  third := []
  atLock := []
  curFirst := call % 2 = 0

theorem simPipeline_routesKeepMessage : simPipeline.RoutesKeepMessage :=
  (configure_wired (pipelineInit_wired (pipelineInit_shipped wireCodec))
    sim_setup).routesKeepMessage

theorem simPipeline_opsKeepRouting : simPipeline.OpsKeepRouting := by
  have hsource : ∀ i, (simPipeline.sources i).transform.isSome = false := by decide
  have hsink : ∀ k, (simPipeline.sinks k).transform.isSome = false := by decide
  apply simPipeline_routesKeepMessage.opsKeepRouting
  · intro i f hf
    simpa [hf] using hsource i
  · intro k f hf
    simpa [hf] using hsink k

/-- A round in which the vehicle sends a heartbeat and a legacy client a stray byte. -/
def simRound : Machine (Links (fun _ : Bool => SocketLink (udpKind Nat 0)) Unit)
    (Nat → List UInt8) :=
  finalMachine (runActions simEnv (Machine.start simPipeline
    ⟨fun l => .start (fun _ => some fun _ => 0)
      (if l then datagramAt 0 heartbeat 7 else datagramAt 0 [0] 9), ()⟩ fun _ => []) [.spin 20])

/-- What was sent to the legacy components, and to whom. -/
def simOffered : List (Option (Nat × List UInt8)) := (simRound.world.link false).offered

/-- The heartbeat of the vehicle is read whole and sent on to the legacy client 9. -/
theorem socket_gateway_heartbeat :
    simOffered = [some (9, heartbeat)] ∧
      ∀ s, (simRound.world.link true).socket = some s →
        s.returned = heartbeat ∧ Delivered s := by
  have hclock : ∀ world, (simEnv.timeUs world).2.link = world.link := fun _ => rfl
  obtain ⟨-, -, hlinks⟩ := socket_gateway (fun _ : Bool => udpKind Nat 0) wireCodec
    (pipelineInit_shipped wireCodec) sim_setup simPipeline_opsKeepRouting
    (shippedPolicies_verdictIgnoresAttr wireCodec) hclock (fun _ _ => some fun _ => 0)
    (fun l => if l then datagramAt 0 heartbeat 7 else datagramAt 0 [0] 9) () (fun _ => [])
    [.spin 20]
  refine ⟨by decide +kernel, ?_⟩
  intro s hs
  obtain ⟨hread, hdelivered⟩ := (hlinks true).2.1 s hs
  exact ⟨hread.symm.trans (by decide +kernel), hdelivered⟩

end SecureGateway
